import ChainHead.Proofs.Resolution
import ChainHead.Proofs.CommonAncestor
import ChainHead.Proofs.Engine.Judgement
import ChainHead.Proofs.Engine.Resubmission

/-!
# The last valid block

A refusal that names a last valid block speaks about the branch of the requested head, and the block
should lie on it (`Chain.OnBranch`).  Where two blocks are compared, the block named is their common
ancestor, and the later of the two lies on the branch already.  A request that drops the safe block
is told its own finalized block, which lies there too.

A request that drops the finalized block is told the one that is set, and nobody has compared that
one with the head.  So the block named lies on the branch exactly if the request does not abandon
the finalized block in this way (`Chain.Abandons`, `Engine.latestValidHash_on_branch_iff`).
-/

namespace ChainHead

namespace Chain

variable {chain : Chain} {state : ForkchoiceState} {current heads new : Heads} {a d f g x : Block}
  {ancestor descendant : Named} {latest : Hash} {refusal : Refusal}

/-! ## The branch of the requested head -/

/-- The hash is that of a stored block on the branch of the requested head. -/
def OnBranch (chain : Chain) (state : ForkchoiceState) (latest : Hash) : Prop :=
  ∃ x head, chain.Stored x ∧ x.hash = latest ∧
    chain.block? state.headBlockHash = .ok (some head) ∧
    chain.isAncestor? x head = .ok (some true)

lemma OnBranch.exists_stored (h : chain.OnBranch state latest) :
    ∃ x, chain.Stored x ∧ x.hash = latest := by
  obtain ⟨x, -, hx, hlatest, -, -⟩ := h
  exact ⟨x, hx, hlatest⟩

lemma Names.onBranch (hf : chain.Faithful) (hnames : chain.Names state heads)
    (hx : chain.Descends heads.head x) : chain.OnBranch state x.hash := by
  have hhead := hf.stored hnames.head
  have hstored := hx.stored hf hhead
  exact ⟨x, heads.head, hstored, rfl, hnames.head,
    (isAncestor?_eq_true_iff hf hstored hhead).2 hx⟩

lemma Names.stored (hf : chain.Faithful) (hnames : chain.Names state heads) :
    heads.All chain.Stored :=
  hnames.all fun _ _ => hf.stored

/-! ## What was compared -/

/-- The common ancestor of two blocks lies on the branch if the later one does. -/
lemma Names.onBranch_of_dispute {pointer : Pointer} {refusal' : Refusal} (hf : chain.Faithful)
    (hnames : chain.Names state heads) (ha : chain.Stored a) (hd : chain.Stored d)
    (hbranch : chain.Descends heads.head d)
    (h : chain.dispute a d pointer refusal = .ok (some (.invalid (some latest) refusal'))) :
    chain.OnBranch state latest := by
  obtain ⟨-, -, common, hcommon, hlatest⟩ := exists_commonAncestor?_of_dispute h
  obtain ⟨c, rfl, rfl⟩ := Option.map_eq_some_iff.1 hlatest
  obtain ⟨-, -, hdc⟩ := commonAncestor?_descends hf ha hd hcommon
  exact hnames.onBranch hf (hbranch.trans hdc)

/-- Where the comparison stops, the later block of the pair lies on the branch of the head. -/
lemma Checks.descends (hf : chain.Faithful) (hstored : heads.All chain.Stored)
    (h : chain.Checks heads ancestor descendant) :
    chain.Descends heads.head descendant.block := by
  cases h with
  | finalizedHead _ => exact .refl _ _
  | safeHead _ _ => exact .refl _ _
  | finalizedSafe _ hs _ hsh =>
    exact (isAncestor?_eq_true_iff hf (hstored.safe _ hs) hstored.head).1 hsh

/-- Only what was compared is refused with a last valid block, unless the head was turned down. -/
lemma names_of_resolve (hbad : ∀ bad, chain.badBlock? state.headBlockHash ≠ .ok (some bad))
    (h : chain.resolve state = .ok (.invalid (some latest) refusal)) :
    ∃ heads, chain.Names state heads ∧
      chain.resolveBlocks heads = .ok (.invalid (some latest) refusal) := by
  have hends := chain.ends state
  generalize chain.resolve state = result at h hends
  cases hends with
  | zeroHead _ => cases h
  | rejectedHead _ hrejected => exact absurd hrejected (hbad _)
  | missing _ _ _ => cases h
  | unreadable _ => cases h
  | @compared heads hnames => exact ⟨heads, hnames, h⟩

/-- The comparison names a block on the branch. -/
lemma Names.onBranch_of_resolveBlocks (hf : chain.Faithful) (hnames : chain.Names state heads)
    (h : chain.resolveBlocks heads = .ok (.invalid (some latest) refusal)) :
    chain.OnBranch state latest := by
  have hstored := hnames.stored hf
  obtain ⟨ancestor, descendant, hchecks, hobjection⟩ := exists_checks h nofun
  obtain ⟨ha, hd⟩ := hchecks.all hstored
  exact hnames.onBranch_of_dispute hf ha hd (hchecks.descends hf hstored) hobjection

/-! ## What finality asks -/

/-- The fork choice drops the finalized block, and its head does not descend from it. -/
def Abandons (chain : Chain) (current : Heads) (state : ForkchoiceState) : Prop :=
  ∃ new f, chain.resolve state = .ok (.resolved new) ∧ new.finalized = none ∧
    current.finalized = some f ∧ chain.isAncestor? f new.head ≠ .ok (some true)

/-- Pointers that resolve and are refused for the sake of finality either drop the finalized block,
and are told the one that is set, or are told a block on their branch. -/
lemma Resolves.of_finalityObjection? (hf : chain.Faithful) (hresolves : chain.Resolves state new)
    (hcurrent : ∀ f ∈ current.finalized, chain.Stored f)
    (h : chain.finalityObjection? current new = .ok (some (.invalid (some latest) refusal))) :
    (∃ f, current.finalized = some f ∧ new.finalized = none ∧ f.hash = latest) ∨
      (∃ g, new.finalized = some g) ∧ chain.OnBranch state latest := by
  have hnames := hresolves.names
  have hstored := hnames.stored hf
  -- a finalized block that is named lies on the branch, for that was compared before
  have hbranch {g : Block} (hnew : new.finalized = some g) : chain.Descends new.head g :=
    (isAncestor?_eq_true_iff hf (hstored.finalized g hnew) hstored.head).1
      (hresolves.ordered.finalized_head g hnew)
  have hends := chain.finality_ends current new
  generalize chain.finalityObjection? current new = result at h hends
  cases hends with
  | unbound _ => cases h
  | @finalizedUnset f hset hnew =>
    cases h
    exact .inl ⟨f, hset, hnew, rfl⟩
  | @safeUnset f g _ hnew _ =>
    cases h
    exact .inr ⟨⟨g, hnew⟩, hnames.onBranch hf (hbranch hnew)⟩
  | @compared f g hset hnew _ =>
    exact .inr ⟨⟨g, hnew⟩, hnames.onBranch_of_dispute hf (hcurrent f hset)
      (hstored.finalized g hnew) (hbranch hnew) h⟩

/-- A judgement that names a last valid block speaks about stored pointers. -/
lemma names_of_judge (hbad : ∀ bad, chain.badBlock? state.headBlockHash ≠ .ok (some bad))
    (h : chain.judge current state = .ok (.invalid (some latest) refusal)) :
    ∃ heads, chain.Names state heads := by
  obtain hresolve | ⟨new, hresolve, -⟩ := (judge_eq_ok_iff_of_ne (by simp)).1 h
  · obtain ⟨heads, hnames, -⟩ := names_of_resolve hbad hresolve
    exact ⟨heads, hnames⟩
  · exact ⟨new, (resolve_eq_resolved_iff.1 hresolve).names⟩

/-- A judgement that names a last valid block names a stored one.  It lies on the branch of the head
unless the fork choice abandons the finalized block. -/
theorem onBranch_iff_of_judge (hf : chain.Faithful)
    (hcurrent : ∀ f ∈ current.finalized, chain.Stored f)
    (hbad : ∀ bad, chain.badBlock? state.headBlockHash ≠ .ok (some bad))
    (h : chain.judge current state = .ok (.invalid (some latest) refusal)) :
    (∃ x, chain.Stored x ∧ x.hash = latest) ∧
      (chain.OnBranch state latest ↔ ¬ chain.Abandons current state) := by
  obtain hresolve | ⟨new, hresolve, hobjection⟩ := (judge_eq_ok_iff_of_ne (by simp)).1 h
  · obtain ⟨heads, hnames, hblocks⟩ := names_of_resolve hbad hresolve
    have hbranch := hnames.onBranch_of_resolveBlocks hf hblocks
    refine ⟨hbranch.exists_stored, iff_of_true hbranch ?_⟩
    rintro ⟨new, f, hresolved, -⟩
    cases hresolve.symm.trans hresolved
  have hresolves := resolve_eq_resolved_iff.1 hresolve
  obtain ⟨f, hset, hnone, rfl⟩ | ⟨⟨g, hnew⟩, hbranch⟩ :=
    hresolves.of_finalityObjection? hf hcurrent hobjection
  · -- the block that is named is the finalized one, whatever the head
    have hstored := hcurrent f hset
    refine ⟨⟨f, hstored, rfl⟩, ?_⟩
    constructor
    · rintro ⟨x, head, hx, hhash, hhead, hancestor⟩ ⟨new', f', hresolve', -, hset', hnot⟩
      cases hresolve.symm.trans hresolve'
      cases hset.symm.trans hset'
      cases hhead.symm.trans hresolves.head
      cases hx.eq_of_hash_eq hstored hhash
      exact hnot hancestor
    · intro hkeeps
      refine ⟨f, new.head, hstored, rfl, hresolves.head, ?_⟩
      by_contra hnot
      exact hkeeps ⟨new, f, hresolve, hnone, hset, hnot⟩
  · refine ⟨hbranch.exists_stored, iff_of_true hbranch ?_⟩
    rintro ⟨new', f', hresolve', hnone, -⟩
    cases hresolve.symm.trans hresolve'
    cases hnew.symm.trans hnone

end Chain

namespace Engine

variable {e : Engine} {v : Version} {param : ForkchoiceParam} {state : ForkchoiceState}
  {attributes : Option PayloadAttributes} {latest : Hash} {reason : String}
  {id : Option PayloadId}

/-! ## What the engine answers -/

/-- An answer that refuses and names a block was judged so. -/
lemma judge_of_latestValidHash (hstate : v.validate e.schedule param attributes = .ok state)
    (hanswer : (e.forkchoiceUpdated v param attributes).answer =
      .update ⟨.invalid (some latest) reason, id⟩) :
    ∃ refusal, e.store.chain.judge e.heads state = .ok (.invalid (some latest) refusal) := by
  have hfrom := answer_of_valid hstate
  rw [hanswer] at hfrom
  generalize hresult : (e.apply state).result = result at hfrom
  cases hfrom with
  | applied h => exact absurd h (not_or.2 ⟨Answer.not_isValid (.inr ⟨reason, rfl⟩), nofun⟩)
  | refused _ refusal => exact ⟨refusal, judge_of_result hresult nofun nofun⟩

/-- In every state of a run, an answer that refuses a fork choice, not because its head was turned
down, and names a last valid block, names a stored one.  It lies on the branch of the requested head
exactly if the fork choice does not abandon the finalized block. -/
theorem latestValidHash_on_branch_iff (h : Reachable e)
    (hstate : v.validate e.schedule param attributes = .ok state)
    (hbad : ∀ bad, e.store.chain.badBlock? state.headBlockHash ≠ .ok (some bad))
    (hanswer : (e.forkchoiceUpdated v param attributes).answer =
      .update ⟨.invalid (some latest) reason, id⟩) :
    (∃ x, e.store.chain.Stored x ∧ x.hash = latest) ∧
      (e.store.chain.OnBranch state latest ↔ ¬ e.store.chain.Abandons e.heads state) := by
  obtain ⟨refusal, hjudge⟩ := judge_of_latestValidHash hstate hanswer
  obtain ⟨heads, hnames⟩ := Chain.names_of_judge hbad hjudge
  have hread := Store.readable_of_block? hnames.head
  refine Chain.onBranch_iff_of_judge (h.sound.built.faithful.of_growsTo e.store.chain_growsTo) ?_
    hbad hjudge
  intro f hf
  exact (h.sound.carries.finalized f hf).grow (Store.chain_growsTo_of_readable hread)

lemma answer_of_again {h : Heads} {f : Block} (haccept : e.Accepts h.request h)
    (hfinalized : h.finalized = some f) (hsafe : h.safe = none) :
    ((e.update h).forkchoiceUpdated .v1 h.request.toParam none).answer =
      .update ⟨.invalid (some f.hash) Refusal.safeUnset.message, none⟩ :=
  second_answer (validate_request e.schedule h) haccept hfinalized hsafe

theorem latestValidHash_on_branch_afterFirst :
    Reachable afterFirst ∧
      Version.v1.validate afterFirst.schedule firstFinalized.request.toParam none =
        .ok firstFinalized.request ∧
      (∀ bad, afterFirst.store.chain.badBlock? firstFinalized.request.headBlockHash ≠
        .ok (some bad)) ∧
      (afterFirst.forkchoiceUpdated .v1 firstFinalized.request.toParam none).answer =
        .update ⟨.invalid (some (hashOf 1)) Refusal.safeUnset.message, none⟩ ∧
      afterFirst.store.chain.OnBranch firstFinalized.request (hashOf 1) := by
  have hchain : afterFirst.store.chain = twoBlocks.store.chain := by
    obtain ⟨metrics, hafter⟩ := exists_afterFirst
    rw [hafter]
    exact moveTo_chain twoBlocks firstFinalized
  have hbad : ∀ bad, afterFirst.store.chain.badBlock? firstFinalized.request.headBlockHash ≠
      .ok (some bad) := by
    rw [hchain]
    exact nofun
  have hanswer : (afterFirst.forkchoiceUpdated .v1 firstFinalized.request.toParam none).answer =
      .update ⟨.invalid (some firstBlock.hash) Refusal.safeUnset.message, none⟩ :=
    answer_of_again twoBlocks_accepts_first rfl rfl
  have hstate := validate_request afterFirst.schedule firstFinalized
  refine ⟨reachable_afterFirst, hstate, hbad, hanswer, ?_⟩
  refine (latestValidHash_on_branch_iff reachable_afterFirst hstate hbad hanswer).2.2 ?_
  -- the request names a finalized block, so it abandons none
  rintro ⟨new, f, hresolve, hnone, -⟩
  rw [hchain, Chain.resolve_eq_resolved_iff.2 twoBlocks_resolves_first] at hresolve
  cases hresolve
  cases hnone

/-! ## Two branches -/

/-- The engine with the second block and its rival stored. -/
def threeBlocks : Engine :=
  twoBlocks.withDatabase (twoBlocks.store.database.insertBlock rivalBlock)

/-- The engine that has finalized the second block. -/
def afterRival : Engine := threeBlocks.update secondFinalized

/-- The rival as the head, and nothing else. -/
def rivalHead : Heads := .ofGenesis rivalBlock

lemma admits_rivalBlock : twoBlocks.store.database.Admits rivalBlock :=
  Database.admits_of_missing block?_rivalBlock

lemma twoBlocks_growsTo : twoBlocks.store.chain.GrowsTo threeBlocks.store.chain :=
  withDatabase_growsTo rfl (Database.growsTo_insertBlock admits_rivalBlock)

lemma stored_rivalBlock : threeBlocks.store.chain.Stored rivalBlock :=
  (Database.stored_insertBlock twoBlocks.store.database rivalBlock).grow
    (Store.chain_growsTo_of_readable (s := threeBlocks.store) rfl)

lemma badBlock?_threeBlocks (hash : Hash) :
    threeBlocks.store.chain.badBlock? hash = twoBlocks.store.chain.badBlock? hash := by
  have hbad : threeBlocks.store.chain.badBlock? = twoBlocks.store.chain.badBlock? :=
    withDatabase_badBlock? rfl
  rw [hbad]

lemma threeBlocks_accepts_second :
    threeBlocks.Accepts secondFinalized.request secondFinalized where
  unpoisoned := rfl
  resolves := Chain.resolve_eq_resolved_iff.2
    (twoBlocks_resolves_second.grow twoBlocks_growsTo (badBlock?_threeBlocks _))
  unopposed := rfl
  writable := .inr rfl

lemma reachable_afterRival : Reachable afterRival :=
  (reachable_twoBlocks.step (.insertBlock rivalBlock admits_rivalBlock)).step
    (step_of_accepts threeBlocks_accepts_second)

lemma threeBlocks_resolves_rival : threeBlocks.store.chain.Resolves rivalHead.request rivalHead where
  head_ne_zero := by decide
  not_rejected := rfl
  head := stored_rivalBlock
  safe := rfl
  finalized := rfl
  ordered := ⟨nofun, nofun, nofun⟩

/-- With the second block finalized, a request for its rival that names no finalized block is told
that the second block is the last valid one, which does not lie on the branch of the rival. -/
theorem latestValidHash_off_branch :
    Reachable afterRival ∧
      (afterRival.forkchoiceUpdated .v1 rivalHead.request.toParam none).answer =
        .update ⟨.invalid (some (hashOf 2)) "finalized block hash cannot be zero once set", none⟩ ∧
      afterRival.store.chain.badBlock? rivalHead.request.headBlockHash = .ok none ∧
      afterRival.store.chain.Stored secondBlock ∧ secondBlock.hash = hashOf 2 ∧
      afterRival.store.chain.block? rivalHead.request.headBlockHash = .ok (some rivalBlock) ∧
      afterRival.store.chain.isAncestor? secondBlock rivalBlock = .ok (some false) ∧
      ¬ afterRival.store.chain.OnBranch rivalHead.request (hashOf 2) := by
  obtain ⟨metrics, hafter⟩ := update_of_accepts threeBlocks_accepts_second
  have hafter : afterRival = { threeBlocks.moveTo secondFinalized with metrics } := hafter
  have hchain : afterRival.store.chain = threeBlocks.store.chain := by
    rw [hafter]
    exact moveTo_chain threeBlocks secondFinalized
  have hheads : afterRival.heads = secondFinalized := by
    rw [hafter]
    exact moveTo_heads threeBlocks secondFinalized
  have hjudge : afterRival.store.chain.judge afterRival.heads rivalHead.request =
      .ok (.invalid (some (hashOf 2)) .finalizedUnset) := by
    refine (Chain.judge_eq_ok_iff_of_ne (by simp)).2 (.inr ⟨rivalHead, ?_, ?_⟩)
    · rw [hchain]
      exact Chain.resolve_eq_resolved_iff.2 threeBlocks_resolves_rival
    · rw [hheads]
      rfl
  have hanswer : (afterRival.forkchoiceUpdated .v1 rivalHead.request.toParam none).answer =
      .update ⟨.invalid (some (hashOf 2)) Refusal.finalizedUnset.message, none⟩ :=
    answer_of_judge_invalid (validate_request _ _) reachable_afterRival.sound.unpoisoned hjudge
  have hsecond : afterRival.store.chain.Stored secondBlock := by
    rw [hchain]
    exact stored_secondBlock.grow twoBlocks_growsTo
  have hrival : afterRival.store.chain.Stored rivalBlock := by
    rw [hchain]
    exact stored_rivalBlock
  have hoff : afterRival.store.chain.isAncestor? secondBlock rivalBlock = .ok (some false) := rfl
  refine ⟨reachable_afterRival, hanswer, ?_, hsecond, rfl, hrival, hoff, ?_⟩
  · rw [hchain]
    rfl
  · -- a hash belongs to one stored block, so only the second block could lie on the branch
    rintro ⟨x, head, hx, hhash, hhead, hancestor⟩
    cases hx.eq_of_hash_eq hsecond hhash
    cases hhead.symm.trans hrival
    cases hoff.symm.trans hancestor

end Engine

end ChainHead
