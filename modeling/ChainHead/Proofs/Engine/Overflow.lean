import ChainHead.Proofs.Build.Progress
import ChainHead.Proofs.Engine.Judgement
import ChainHead.Proofs.Faultless

/-!
# Overflows

Heights are added to in two places: a stored parent is asked for the height above it, and so is the
parent of a payload.  Both overflow on a block at the greatest height and on no other.

Blocks are stored unchecked, so such a block may be stored.  If there is none, nothing overflows:
neither a walk, nor a request on any engine, nor a job that a request starts.  If there is one, the
step down to it overflows (`Store.neverOverflows_iff`), and a request that gets there leaves the
pointers poisoned (`Engine.overflow_of_topBlock`).
-/

namespace ChainHead

namespace Chain

variable {chain : Chain} {a b d p : Block} {failure : Failure}

/-- There is a height above every stored block. -/
def HasRoom (chain : Chain) : Prop := ∀ hash b, chain.block? hash = .ok (some b) → b.HasRoom

/-- Above height zero, a step down depends on what is found as the parent. -/
lemma parent?_eq_bind (hb : b.number ≠ 0) :
    chain.parent? b = chain.block? b.parentHash >>= fun
      | none => .ok none
      | some p => successor p.number >>= fun next =>
        if next = b.number then .ok (some p)
        else .error (.fault (.brokenLink b.hash b.number p.number)) := by
  unfold parent? Block.isGenesis
  rw [decide_eq_false hb]
  rfl

/-- A parent at a wrong height is reported, as long as there is a height above it. -/
lemma parent?_of_wrong_height (hb : b.number ≠ 0)
    (hp : chain.block? b.parentHash = .ok (some p)) (hroom : p.HasRoom)
    (hwrong : p.number.toNat + 1 ≠ b.number.toNat) :
    chain.parent? b = .error (.fault (.brokenLink b.hash b.number p.number)) := by
  have hnext : successor p.number = .ok (p.number + 1) := if_pos hroom
  have hne : p.number + 1 ≠ b.number := by
    intro heq
    rw [heq] at hnext
    exact hwrong (successor_eq_ok_iff.1 hnext)
  rw [parent?_eq_bind hb, hp]
  show (successor p.number >>= _) = _
  rw [hnext]
  exact if_neg hne

/-- A step down overflows on a parent at the greatest height. -/
lemma parent?_eq_overflow_iff (hread : ¬ chain.Fails .overflow) :
    chain.parent? b = .error .overflow ↔
      b.number ≠ 0 ∧ ∃ p, chain.block? b.parentHash = .ok (some p) ∧ ¬ p.HasRoom := by
  by_cases hb : b.number = 0
  · refine iff_of_false ?_ fun h => h.1 hb
    unfold parent? Block.isGenesis
    rw [decide_eq_true hb]
    exact nofun
  rw [parent?_eq_bind hb]
  constructor
  · intro h
    obtain hfail | ⟨_ | p, hp, h⟩ := bind_eq_error_iff.1 h
    · exact absurd (.inl ⟨_, hfail⟩) hread
    · cases h
    · refine ⟨hb, p, hp, ?_⟩
      obtain hfail | ⟨next, -, h⟩ := bind_eq_error_iff.1 h
      · exact successor_eq_overflow_iff.1 hfail
      · split_ifs at h
        cases h
  · rintro ⟨-, p, hp, htop⟩
    exact bind_eq_error_iff.2 (.inr ⟨_, hp, bind_eq_error_iff.2
      (.inl (successor_eq_overflow_iff.2 htop))⟩)

/-- With room above every block nothing overflows. -/
lemma HasRoom.spares (h : chain.HasRoom) (hread : ¬ chain.Fails .overflow) :
    chain.Spares .overflow fun _ => True where
  read := hread
  found _ _ _ := trivial
  step b _ hfail := by
    obtain ⟨-, p, hp, htop⟩ := (parent?_eq_overflow_iff hread).1 hfail
    exact htop (h _ p hp)

/-- The test for an ancestor below fails if the first step does. -/
lemma isAncestor?_of_parent?_eq_error (hlt : a.number < d.number)
    (h : chain.parent? d = .error failure) : chain.isAncestor? a d = .error failure := by
  have hle : ¬ d.number < a.number := UInt64.not_lt.2 (UInt64.le_of_lt hlt)
  have hsteps : d.number.toNat - a.number.toNat = d.number.toNat - a.number.toNat - 1 + 1 := by
    have := UInt64.lt_iff_toNat_lt.1 hlt
    omega
  unfold isAncestor? ancestorAt?
  rw [if_neg hle, if_neg hle, hsteps, descend, h]
  rfl

end Chain

namespace Store

/-- Reading a store does not overflow. -/
lemma not_fails_overflow (s : Store) : ¬ s.chain.Fails .overflow := by
  have hmap {α : Type} (x : Except Fault α) : x.mapError Failure.fault ≠ .error .overflow := by
    cases x <;> exact nofun
  rintro (⟨hash, h⟩ | ⟨hash, h⟩)
  · simp only [chain] at h
    split_ifs at h
    · cases h
    · exact hmap _ h
  · simp only [chain] at h
    split_ifs at h
    · cases h
    · exact hmap _ h

/-- Over this store no 64-bit addition overflows, and a parent at a wrong height is reported. -/
structure NeverOverflows (s : Store) : Prop where
  parent : ∀ b, s.chain.parent? b ≠ .error .overflow
  wrongHeight : ∀ b p, b.number ≠ 0 → s.chain.block? b.parentHash = .ok (some p) →
    p.number.toNat + 1 ≠ b.number.toNat →
      s.chain.parent? b = .error (.fault (.brokenLink b.hash b.number p.number))
  ancestorAt : ∀ b number, s.chain.ancestorAt? b number ≠ .error .overflow
  isAncestor : ∀ a d, s.chain.isAncestor? a d ≠ .error .overflow
  commonAncestor : ∀ a b, s.chain.commonAncestor? a b ≠ .error .overflow
  resolve : ∀ state, s.chain.resolve state ≠ .error .overflow
  /-- No request on an engine over the store overflows, whatever its pointers are. -/
  request : ∀ (e : Engine) (v : Version) (param : ForkchoiceParam)
    (attributes : Option PayloadAttributes), e.store = s →
      (e.forkchoiceUpdated v param attributes).answer ≠ .overflow
  /-- A job that such a request starts always has a block to build, and unless the builder crashes
  nothing ever stops it. -/
  job : ∀ (e : Engine) (v : Version) (param : ForkchoiceParam)
    (attributes : Option PayloadAttributes) (status : PayloadStatus) (id : PayloadId)
    (later : Coordinator), e.store = s →
      (e.forkchoiceUpdated v param attributes).answer = .update ⟨status, some id⟩ →
      (∀ answer ∈ e.coordinator.script, answer.kind ≠ .crash) →
      Coordinator.Reaches (e.forkchoiceUpdated v param attributes).after.coordinator later →
        ∃ j, later.jobs[e.coordinator.jobs.length]? = some j ∧ j.id = id ∧ j.phase ≠ .crashed ∧
          ∃ p, j.order.emptyBlock = .ok p

variable {s : Store}

lemma request_of_hasRoom (h : s.chain.HasRoom) (e : Engine) (v : Version) (param : ForkchoiceParam)
    (attributes : Option PayloadAttributes) (he : e.store = s) :
    (e.forkchoiceUpdated v param attributes).answer ≠ .overflow := by
  subst he
  intro hanswer
  obtain ⟨state, hjudge⟩ := Engine.judge_of_overflow hanswer
  exact (h.spares e.store.not_fails_overflow).judge (fun _ _ => trivial) hjudge

lemma job_of_hasRoom (h : s.chain.HasRoom) (e : Engine) (v : Version) (param : ForkchoiceParam)
    (attributes : Option PayloadAttributes) (status : PayloadStatus) (id : PayloadId)
    (later : Coordinator) (he : e.store = s)
    (hanswer : (e.forkchoiceUpdated v param attributes).answer = .update ⟨status, some id⟩)
    (hscript : ∀ answer ∈ e.coordinator.script, answer.kind ≠ .crash)
    (hreach : Coordinator.Reaches (e.forkchoiceUpdated v param attributes).after.coordinator
      later) :
    ∃ j, later.jobs[e.coordinator.jobs.length]? = some j ∧ j.id = id ∧ j.phase ≠ .crashed ∧
      ∃ p, j.order.emptyBlock = .ok p := by
  subst he
  have hends := e.answered v param attributes
  rw [hanswer] at hends
  obtain ⟨state, new, a, metrics, haccept, -, -, -, hid, hafter⟩ := hends.started
  -- the parent of the payload was found in the store
  have hroom : new.head.HasRoom :=
    h _ _ (Chain.resolve_eq_resolved_iff.1 haccept.resolves).head
  rw [hafter] at hreach
  obtain ⟨-, j, hj, hworks⟩ := hreach.keeps hroom (Coordinator.keeps_start hscript hid)
  refine ⟨j, hj, hworks.id_eq, hworks.not_crashed, j.order.exists_emptyBlock_iff.2 ?_⟩
  show j.parent.HasRoom
  rw [hworks.parent_eq]
  exact hroom

/-- Over a store nothing overflows exactly if no stored block is at the greatest height. -/
theorem neverOverflows_iff (s : Store) : s.NeverOverflows ↔ s.chain.HasRoom := by
  have hread := s.not_fails_overflow
  constructor
  · intro h hash b hb
    by_contra htop
    -- a block at height one on top of it
    have hchild : (1 : UInt64) ≠ 0 := by decide
    exact h.parent ⟨hash, 1, hash, 0⟩
      ((Chain.parent?_eq_overflow_iff hread).2 ⟨hchild, b, hb, htop⟩)
  · intro h
    have hspares := h.spares hread
    exact {
      parent := fun b => hspares.step b trivial
      wrongHeight := fun b p hb hp => Chain.parent?_of_wrong_height hb hp (h _ p hp)
      ancestorAt := fun b number => hspares.ancestorAt? trivial
      isAncestor := fun a d => hspares.isAncestor? trivial
      commonAncestor := fun a b => hspares.commonAncestor? trivial trivial
      resolve := fun state => hspares.resolve
      request := request_of_hasRoom h
      job := job_of_hasRoom h }

end Store

namespace Engine

variable {e : Engine}

/-! ## A block at the greatest height -/

/-- A block at the greatest height. -/
def topBlock : Block := ⟨hashOf 4, UInt64.ofNat (UInt64.size - 1), hashOf 2, 24⟩

/-- A block at a low height on top of it. -/
def looseBlock : Block := ⟨hashOf 5, 5, hashOf 4, 60⟩

/-- The engine with the block at the greatest height stored. -/
def topped : Engine := twoBlocks.withDatabase (twoBlocks.store.database.insertBlock topBlock)

/-- The engine with the block on top of it stored as well. -/
def loosened : Engine := topped.withDatabase (topped.store.database.insertBlock looseBlock)

/-- The loose block as the head, and the first block safe. -/
def looseHead : Heads := ⟨looseBlock, some firstBlock, none⟩

lemma admits_topBlock : twoBlocks.store.database.Admits topBlock :=
  Database.admits_of_missing (block?_twoBlocks (by decide) (by decide))

lemma admits_looseBlock : topped.store.database.Admits looseBlock := by
  refine Database.admits_of_missing ?_
  show (twoBlocks.store.database.insertBlock topBlock).block? looseBlock.hash = _
  rw [Database.block?_insertBlock, if_neg (by decide),
    block?_twoBlocks (by decide) (by decide)]

lemma reachable_loosened : Reachable loosened :=
  (reachable_twoBlocks.step (.insertBlock topBlock admits_topBlock)).step
    (.insertBlock looseBlock admits_looseBlock)

lemma topped_growsTo : topped.store.chain.GrowsTo loosened.store.chain :=
  withDatabase_growsTo rfl (Database.growsTo_insertBlock admits_looseBlock)

lemma stored_topBlock : loosened.store.chain.Stored topBlock :=
  ((Database.stored_insertBlock twoBlocks.store.database topBlock).grow
    (Store.chain_growsTo_of_readable (s := topped.store) rfl)).grow topped_growsTo

lemma names_looseHead : loosened.store.chain.Names looseHead.request looseHead where
  head_ne_zero := by decide
  not_rejected := rfl
  head := (Database.stored_insertBlock topped.store.database looseBlock).grow
    (Store.chain_growsTo_of_readable (s := loosened.store) rfl)
  safe := by
    have hgrow : twoBlocks.store.chain.GrowsTo topped.store.chain :=
      withDatabase_growsTo rfl (Database.growsTo_insertBlock admits_topBlock)
    exact ⟨by decide, stored_firstBlock.grow (hgrow.trans topped_growsTo)⟩
  finalized := rfl

lemma parent?_looseBlock : loosened.store.chain.parent? looseBlock = .error .overflow :=
  (Chain.parent?_eq_overflow_iff loosened.store.not_fails_overflow).2
    ⟨by decide, topBlock, stored_topBlock, by simp [Block.HasRoom, topBlock]⟩

lemma resolve_looseHead :
    loosened.store.chain.resolve looseHead.request = .error .overflow := by
  have hchecks : loosened.store.chain.Checks looseHead ⟨.safe, firstBlock⟩ ⟨.head, looseBlock⟩ :=
    .safeHead rfl nofun
  have hobjection : loosened.store.chain.objection? ⟨.safe, firstBlock⟩ ⟨.head, looseBlock⟩ =
      .error .overflow :=
    Chain.dispute_of_failed (Chain.isAncestor?_of_parent?_eq_error (by decide) parent?_looseBlock)
  rw [names_looseHead.resolve_eq, hchecks.resolveBlocks_eq (hobjection ▸ nofun), hobjection]
  rfl

/-- Blocks can be stored such that the step down to a parent at a wrong height overflows, a request
that takes this step stops with the pointers poisoned, and a payload on that parent cannot be
built. -/
theorem overflow_of_topBlock :
    Reachable loosened ∧
      loosened.store.chain.block? looseBlock.parentHash = .ok (some topBlock) ∧
      topBlock.number.toNat + 1 ≠ looseBlock.number.toNat ∧
      loosened.store.chain.parent? looseBlock = .error .overflow ∧
      (loosened.forkchoiceUpdated .v1 looseHead.request.toParam none).answer = .overflow ∧
      (loosened.forkchoiceUpdated .v1 looseHead.request.toParam none).after.poisoned = true ∧
      BuildOrder.emptyBlock ⟨topBlock, lateAttributes, 0⟩ = .error .overflow := by
  have hjudge : loosened.store.chain.judge loosened.heads looseHead.request =
      .error .overflow := by
    unfold Chain.judge
    exact bind_eq_error_iff.2 (.inl resolve_looseHead)
  have hanswer : (loosened.forkchoiceUpdated .v1 looseHead.request.toParam none).answer =
      .overflow :=
    answer_of_judge_overflow (validate_request _ _) reachable_loosened.sound.unpoisoned hjudge
  have hends := loosened.answered .v1 looseHead.request.toParam none
  rw [hanswer] at hends
  exact ⟨reachable_loosened, stored_topBlock, by decide, parent?_looseBlock, hanswer,
    hends.poisoned_of_overflow.2, rfl⟩

end Engine

end ChainHead
