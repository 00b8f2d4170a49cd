import ChainHead.Proofs.Engine.Judgement
import ChainHead.Proofs.Faultless

/-!
# Syncing

A fork choice is left open if it names a block that is not stored, or if a walk meets a gap.  In a
complete chain every stored block above height zero has its parent stored one height below
(`Chain.Complete`), so no walk meets a gap or a parent at a wrong height, not even one that starts
at the block that was finalized before.  What remains open is what names a missing block
(`Chain.Complete.judge_unknown_iff`).

So an engine over such a store, as long as it can read and write, answers that it is syncing exactly
to requests that name a missing block, and to none with an internal error (`Engine.syncing_iff`).
-/

namespace ChainHead

namespace Chain

variable {chain : Chain} {a b d : Block} {state : ForkchoiceState} {current heads new : Heads}
  {pointer : Pointer} {refusal : Refusal} {failure : Failure} {steps : Nat}

/-- The block is found under some hash. -/
def Holds (chain : Chain) (b : Block) : Prop := ∃ hash, chain.block? hash = .ok (some b)

/-- Every stored block above height zero has its parent stored one height below. -/
def Complete (chain : Chain) : Prop :=
  ∀ b, chain.Holds b → b.number ≠ 0 →
    ∃ p, chain.block? b.parentHash = .ok (some p) ∧ p.number.toNat + 1 = b.number.toNat

/-- All that is stored can be read. -/
def Readable (chain : Chain) : Prop := ∀ failure, ¬ chain.Fails failure

lemma Stored.holds (h : chain.Stored b) : chain.Holds b := ⟨b.hash, h⟩

namespace Complete

/-! ## Walks without gaps -/

lemma exists_parent? (h : chain.Complete) (hb : chain.Holds b) (hne : b.number ≠ 0) :
    ∃ p, chain.parent? b = .ok (some p) := by
  obtain ⟨p, hp⟩ := h b hb hne
  exact ⟨p, parent?_eq_some_iff.2 hp⟩

/-- Where all can be read, nothing fails. -/
lemma spares (h : chain.Complete) (hread : chain.Readable) (failure : Failure) :
    chain.Spares failure chain.Holds where
  read := hread failure
  found hash b hb := ⟨hash, hb⟩
  step b hb := by
    by_cases hzero : b.number = 0
    · unfold parent? Block.isGenesis
      rw [decide_eq_true hzero]
      exact nofun
    · obtain ⟨p, hp⟩ := h.exists_parent? hb hzero
      rw [hp]
      exact nofun

/-- From a stored block one can go down as many steps as it is high. -/
lemma exists_descend (h : chain.Complete) (hb : chain.Holds b) (hsteps : steps ≤ b.number.toNat) :
    ∃ x, chain.descend steps b = .ok (some x) := by
  induction steps generalizing b with
  | zero => exact ⟨b, rfl⟩
  | succ steps ih =>
    have hne : b.number ≠ 0 := by
      intro hzero
      rw [hzero, UInt64.toNat_zero] at hsteps
      omega
    obtain ⟨p, hp⟩ := h.exists_parent? hb hne
    obtain ⟨hfound, hnumber⟩ := parent?_eq_some_iff.1 hp
    obtain ⟨x, hx⟩ := ih ⟨_, hfound⟩ (by omega)
    exact ⟨x, descend_succ_eq_some_iff.2 ⟨p, hp, hx⟩⟩

/-- The test for ancestors of a stored block is never left open. -/
theorem exists_isAncestor? (h : chain.Complete) (a : Block) (hd : chain.Holds d) :
    ∃ answer, chain.isAncestor? a d = .ok (some answer) := by
  unfold isAncestor?
  by_cases hlt : d.number < a.number
  · rw [if_pos hlt]
    exact ⟨false, rfl⟩
  · rw [if_neg hlt]
    obtain ⟨x, hx⟩ := h.exists_descend hd (Nat.sub_le d.number.toNat a.number.toNat)
    have hfound := ancestorAt?_eq_some_iff.2 ⟨UInt64.not_lt.1 hlt, hx⟩
    exact ⟨_, bind_eq_ok_iff.2 ⟨_, hfound, rfl⟩⟩

lemma dispute_ne_unknown (h : chain.Complete) (hd : chain.Holds d) (other : Pointer) :
    chain.dispute a d pointer refusal ≠ .ok (some (.unknown other)) := by
  obtain ⟨answer, hanswer⟩ := h.exists_isAncestor? a hd
  intro hopen
  have hends := chain.dispute_ends a d pointer refusal
  rw [hopen] at hends
  cases hends with
  | undecided hundecided => cases hanswer.symm.trans hundecided

/-! ## What is left open -/

lemma resolveBlocks_ne_unknown (h : chain.Complete) (hheads : heads.All chain.Holds)
    (pointer : Pointer) : chain.resolveBlocks heads ≠ .ok (.unknown pointer) := by
  intro hopen
  obtain ⟨ancestor, descendant, hchecks, hobjection⟩ := exists_checks hopen nofun
  exact h.dispute_ne_unknown (hchecks.all hheads).2 pointer hobjection

/-- Resolving is left open exactly if a block is missing, and the head is neither zero nor turned
down. -/
theorem resolve_unknown_iff (h : chain.Complete) (hread : chain.Readable) :
    (∃ pointer, chain.resolve state = .ok (.unknown pointer)) ↔
      state.headBlockHash ≠ .zero 32 ∧ chain.badBlock? state.headBlockHash = .ok none ∧
        ∃ pointer, chain.Misses (state.hashFor pointer) := by
  have hends := chain.ends state
  generalize chain.resolve state = result at hends
  cases hends with
  | zeroHead hzero => exact iff_of_false nofun fun hall => hall.1 hzero
  | rejectedHead _ hbad =>
    refine iff_of_false nofun ?_
    rintro ⟨-, hnone, -⟩
    cases hbad.symm.trans hnone
  | missing hne hbad hmisses => exact iff_of_true ⟨_, rfl⟩ ⟨hne, hbad, _, hmisses⟩
  | compared hnames =>
    refine iff_of_false ?_ ?_
    · rintro ⟨pointer, hopen⟩
      exact h.resolveBlocks_ne_unknown (hnames.all fun hash _ hb => ⟨hash, hb⟩) pointer hopen
    · rintro ⟨-, -, pointer, hmisses⟩
      exact hnames.not_misses pointer hmisses
  | unreadable hfails => exact absurd hfails (hread _)

/-- The pointers that are set leave nothing open that resolves. -/
lemma finalityObjection?_ne_unknown (h : chain.Complete) (hnew : new.All chain.Holds)
    (pointer : Pointer) :
    chain.finalityObjection? current new ≠ .ok (some (.unknown pointer)) := by
  have hends := chain.finality_ends current new
  generalize chain.finalityObjection? current new = result at hends
  cases hends with
  | unbound _ => exact nofun
  | finalizedUnset _ _ => exact nofun
  | safeUnset _ _ _ => exact nofun
  | @compared f g _ hset _ => exact h.dispute_ne_unknown (hnew.finalized g hset) pointer

theorem judge_unknown_iff (h : chain.Complete) (hread : chain.Readable) :
    (∃ pointer, chain.judge current state = .ok (.unknown pointer)) ↔
      state.headBlockHash ≠ .zero 32 ∧ chain.badBlock? state.headBlockHash = .ok none ∧
        ∃ pointer, chain.Misses (state.hashFor pointer) := by
  rw [← h.resolve_unknown_iff hread]
  refine exists_congr fun pointer => ?_
  rw [judge_eq_ok_iff_of_ne (by simp), or_iff_left]
  -- the walk of the finality check goes down from the new finalized block, which is stored
  rintro ⟨new, hresolve, hobjection⟩
  have hnew := (resolve_eq_resolved_iff.1 hresolve).names.all fun hash b hb =>
    (⟨hash, hb⟩ : chain.Holds b)
  exact h.finalityObjection?_ne_unknown hnew pointer hobjection

end Complete

end Chain

/-! ## What answers say -/

/-- No refusal is worded like an internal error. -/
lemma Refusal.message_not_internal (r : Refusal) :
    ¬ "internal error: ".toList <+: r.message.toList := by
  have hstr (s : String) : toString s = s := rfl
  cases r with
  | zeroHead =>
    show ¬ _ <+: "Received zero hash as forkchoice head".toList
    simp
  | rejectedHead reason =>
    show ¬ _ <+: (s!"links to previously rejected block: {reason}").toList
    simp [String.toList_append, hstr]
  | notAncestor ancestor hash descendant other =>
    show ¬ _ <+:
      (s!"{ancestor.name} block {hash} is not an ancestor of {descendant.name} block {other}").toList
    cases ancestor <;> simp [Pointer.name, String.toList_append, hstr]
  | finalizedUnset =>
    show ¬ _ <+: "finalized block hash cannot be zero once set".toList
    simp
  | safeUnset =>
    show ¬ _ <+: "safe block hash cannot be zero once finalized is set".toList
    simp
  | finalizedMoved requested current =>
    show ¬ _ <+:
      (s!"finalized block {requested} does not descend from finalized block {current}").toList
    simp [String.toList_append, hstr]

namespace Engine

variable {e : Engine} {v : Version} {param : ForkchoiceParam} {state : ForkchoiceState}
  {attributes : Option PayloadAttributes} {answer : Answer} {result : Except Failure Resolution}

namespace Answer

/-- It is answered that a block is not known yet. -/
def IsSyncing : Answer → Prop
  | .update u => u.payloadStatus.verdict = .syncing
  | .error _ => False
  | .overflow => False

/-- The fork choice is refused, and the reason is worded as an internal error. -/
def IsInternalError : Answer → Prop
  | .update u => ∃ reason, u.payloadStatus.verdict = .invalid reason ∧
      "internal error: ".toList <+: reason.toList
  | .error _ => False
  | .overflow => False

lemma not_isSyncing_of_applies (h : answer.Applies) : ¬ answer.IsSyncing := by
  intro hsyncing
  match answer, h with
  | .update _, .inl hvalid => cases hsyncing.symm.trans hvalid

lemma not_isInternalError_of_applies (h : answer.Applies) : ¬ answer.IsInternalError := by
  intro hinternal
  match answer, h with
  | .update _, .inl hvalid =>
    obtain ⟨reason, hinvalid, -⟩ := hinternal
    cases hinvalid.symm.trans hvalid

end Answer

namespace AnsweredFrom

/-- A result is answered as syncing exactly if it was left open. -/
lemma isSyncing_iff (h : AnsweredFrom result answer) :
    answer.IsSyncing ↔ ∃ pointer, result = .ok (.unknown pointer) := by
  cases h with
  | applied happlies => exact iff_of_false (Answer.not_isSyncing_of_applies happlies) nofun
  | syncing pointer => exact iff_of_true rfl ⟨pointer, rfl⟩
  | refused _ _ => exact iff_of_false nofun nofun
  | failed _ => exact iff_of_false nofun nofun
  | overflowed => exact iff_of_false nofun nofun

/-- It is answered with an internal error exactly if it is a fault. -/
lemma isInternalError_iff (h : AnsweredFrom result answer) :
    answer.IsInternalError ↔ ∃ fault, result = .error (.fault fault) := by
  cases h with
  | applied happlies => exact iff_of_false (Answer.not_isInternalError_of_applies happlies) nofun
  | syncing _ => exact iff_of_false nofun nofun
  | refused _ refusal =>
    refine iff_of_false ?_ nofun
    rintro ⟨_, ⟨⟩, hinternal⟩
    exact refusal.message_not_internal hinternal
  | failed fault =>
    refine iff_of_true ⟨_, rfl, ?_⟩ ⟨fault, rfl⟩
    have hstr (s : String) : toString s = s := rfl
    simp [String.toList_append, hstr]
  | overflowed => exact iff_of_false nofun nofun

lemma eq_overflow_iff (h : AnsweredFrom result answer) :
    answer = .overflow ↔ result = .error .overflow := by
  cases h with
  | applied happlies =>
    refine iff_of_false ?_ nofun
    rintro rfl
    exact absurd happlies (not_or.2 ⟨nofun, nofun⟩)
  | syncing _ => exact iff_of_false nofun nofun
  | refused _ _ => exact iff_of_false nofun nofun
  | failed _ => exact iff_of_false nofun nofun
  | overflowed => exact iff_of_true rfl rfl

end AnsweredFrom

/-! ## Complete stores -/

/-- Over a complete store that can be read and written, a valid request is answered as syncing
exactly if its head is neither zero nor turned down and one of its hashes is missing, and it is
never answered with an internal error or stopped by an overflow. -/
theorem syncing_iff (hpoisoned : e.poisoned = false) (hread : e.store.chain.Readable)
    (hwrites : e.store.faults.writes = false) (hcomplete : e.store.chain.Complete)
    (hcurrent : e.heads.All e.store.chain.Stored)
    (hstate : v.validate e.schedule param attributes = .ok state) :
    ((e.forkchoiceUpdated v param attributes).answer.IsSyncing ↔
      state.headBlockHash ≠ .zero 32 ∧
        e.store.chain.badBlock? state.headBlockHash = .ok none ∧
        ∃ pointer, e.store.chain.Misses (state.hashFor pointer)) ∧
      ¬ (e.forkchoiceUpdated v param attributes).answer.IsInternalError ∧
      (e.forkchoiceUpdated v param attributes).answer ≠ .overflow := by
  have hfrom := answer_of_valid hstate
  rw [apply_result_of_writable hpoisoned hwrites] at hfrom
  have hnofail (failure : Failure) :
      e.store.chain.judge e.heads state ≠ .error failure :=
    (hcomplete.spares hread failure).judge fun f hf => (hcurrent.finalized f hf).holds
  refine ⟨?_, ?_, ?_⟩
  · rw [hfrom.isSyncing_iff]
    exact hcomplete.judge_unknown_iff hread
  · rw [hfrom.isInternalError_iff]
    rintro ⟨fault, hfail⟩
    exact hnofail _ hfail
  · rw [ne_eq, hfrom.eq_overflow_iff]
    exact hnofail _

/-- The second block as the head, and a safe block that is missing. -/
def missingSafe : ForkchoiceState := ⟨hashOf 2, hashOf 3, .zero 32⟩

lemma twoBlocks_found (hash : Hash) :
    twoBlocks.store.chain.block? hash = .ok (some firstBlock) ∨
      twoBlocks.store.chain.block? hash = .ok (some secondBlock) ∨
        twoBlocks.store.chain.block? hash = .ok none := by
  by_cases hfirst : hash = firstBlock.hash
  · rw [hfirst]
    exact .inl stored_firstBlock
  by_cases hsecond : hash = secondBlock.hash
  · rw [hsecond]
    exact .inr (.inl stored_secondBlock)
  · exact .inr (.inr (Store.block?_of_missing rfl (block?_twoBlocks hfirst hsecond)))

lemma twoBlocks_readable : twoBlocks.store.chain.Readable := by
  rintro failure (⟨hash, hfail⟩ | ⟨hash, hfail⟩)
  · obtain hfound | hfound | hfound := twoBlocks_found hash <;> cases hfound.symm.trans hfail
  · cases hfail

lemma twoBlocks_complete : twoBlocks.store.chain.Complete := by
  rintro b ⟨hash, hb⟩ hne
  obtain hfound | hfound | hfound := twoBlocks_found hash
  · cases hfound.symm.trans hb
    exact absurd rfl hne
  · cases hfound.symm.trans hb
    exact ⟨firstBlock, stored_firstBlock, rfl⟩
  · cases hfound.symm.trans hb

theorem syncing_iff_missingSafe :
    twoBlocks.poisoned = false ∧ twoBlocks.store.chain.Readable ∧
      twoBlocks.store.faults.writes = false ∧ twoBlocks.store.chain.Complete ∧
      twoBlocks.heads.All twoBlocks.store.chain.Stored ∧
      Version.v1.validate twoBlocks.schedule missingSafe.toParam none = .ok missingSafe ∧
      (twoBlocks.forkchoiceUpdated .v1 missingSafe.toParam none).answer.IsSyncing ∧
      ¬ (twoBlocks.forkchoiceUpdated .v1 missingSafe.toParam none).answer.IsInternalError := by
  have hheads : twoBlocks.heads.All twoBlocks.store.chain.Stored :=
    ⟨stored_firstBlock, nofun, nofun⟩
  have hmisses : twoBlocks.store.chain.Misses (missingSafe.hashFor .safe) :=
    ⟨by decide, Store.block?_of_missing rfl block?_rivalBlock⟩
  have hstate : Version.v1.validate twoBlocks.schedule missingSafe.toParam none =
      .ok missingSafe := rfl
  obtain ⟨hsyncing, hinternal, -⟩ :=
    syncing_iff rfl twoBlocks_readable rfl twoBlocks_complete hheads hstate
  have hne : missingSafe.headBlockHash ≠ .zero 32 := by decide
  have hbad : twoBlocks.store.chain.badBlock? missingSafe.headBlockHash = .ok none := rfl
  refine ⟨rfl, twoBlocks_readable, rfl, twoBlocks_complete, hheads, hstate, ?_, hinternal⟩
  rw [hsyncing]
  exact ⟨hne, hbad, .safe, hmisses⟩

end Engine

end ChainHead
