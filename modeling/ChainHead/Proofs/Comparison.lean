import ChainHead.Finality
import ChainHead.Proofs.Ancestry

/-!
# Comparing pointers

Pointers lie on one branch if of each two that are set the lower one is an ancestor of the other
(`Chain.Ordered`).  `Chain.resolveBlocks` compares them pair by pair.  It gives the pointers back
exactly if they are in order (`Chain.resolveBlocks_eq_resolved_iff`), and otherwise it stops at the
first pair that is not (`Chain.Checks`, `Chain.exists_checks`).

What is asked about such a pair is also asked about a finalized block that is to move
(`Chain.dispute`), and `Chain.DisputeEnds` lists the answers.
-/

namespace ChainHead

/-- Each pointer that is set has the property. -/
structure Heads.All (heads : Heads) (P : Block → Prop) : Prop where
  head : P heads.head
  safe : ∀ s ∈ heads.safe, P s
  finalized : ∀ f ∈ heads.finalized, P f

namespace Chain

variable {chain chain' : Chain} {heads h : Heads} {a d : Block} {ancestor descendant : Named}
  {pointer : Pointer} {refusal : Refusal} {failure : Failure}

/-! ## One pair -/

/-- What speaks against one block being an ancestor of another.  Where that is open a block of the
pointer is unknown, and where it is denied the reason is given. -/
def dispute (chain : Chain) (ancestor descendant : Block) (pointer : Pointer) (refusal : Refusal) :
    Except Failure (Option Resolution) := do
  match ← chain.isAncestor? ancestor descendant with
  | some true => return none
  | none => return some (.unknown pointer)
  | some false =>
    let common ← chain.commonAncestor? ancestor descendant
    return some (.invalid (common.map Block.hash) refusal)

lemma objection?_eq_dispute (ancestor descendant : Named) :
    chain.objection? ancestor descendant =
      chain.dispute ancestor.block descendant.block descendant.pointer
        (.notAncestor ancestor.pointer ancestor.block.hash descendant.pointer
          descendant.block.hash) :=
  rfl

lemma moveObjection?_eq_dispute (current requested : Block) :
    chain.moveObjection? current requested =
      chain.dispute current requested .finalized (.finalizedMoved requested.hash current.hash) :=
  rfl

/-- What a dispute comes to, and why. -/
inductive DisputeEnds (chain : Chain) (a d : Block) (pointer : Pointer) (refusal : Refusal) :
    Except Failure (Option Resolution) → Prop where
  /-- The one block is an ancestor of the other. -/
  | settled (hanswer : chain.isAncestor? a d = .ok (some true)) :
      DisputeEnds chain a d pointer refusal (.ok none)
  /-- A gap leaves that open. -/
  | undecided (hanswer : chain.isAncestor? a d = .ok none) :
      DisputeEnds chain a d pointer refusal (.ok (some (.unknown pointer)))
  /-- It is not, and what the two have in common is known. -/
  | denied {common : Option Block} (hanswer : chain.isAncestor? a d = .ok (some false))
      (hcommon : chain.commonAncestor? a d = .ok common) :
      DisputeEnds chain a d pointer refusal
        (.ok (some (.invalid (common.map Block.hash) refusal)))
  /-- A walk fails. -/
  | failed {failure : Failure}
      (hfail : chain.isAncestor? a d = .error failure ∨
        chain.commonAncestor? a d = .error failure) :
      DisputeEnds chain a d pointer refusal (.error failure)

theorem dispute_ends (chain : Chain) (a d : Block) (pointer : Pointer) (refusal : Refusal) :
    chain.DisputeEnds a d pointer refusal (chain.dispute a d pointer refusal) := by
  unfold dispute
  match hanswer : chain.isAncestor? a d with
  | .error failure => exact .failed (.inl hanswer)
  | .ok (some true) => exact .settled hanswer
  | .ok none => exact .undecided hanswer
  | .ok (some false) =>
    cases hcommon : chain.commonAncestor? a d with
    | error failure => exact .failed (.inr hcommon)
    | ok common => exact .denied hanswer hcommon

lemma dispute_of_settled (hanswer : chain.isAncestor? a d = .ok (some true)) :
    chain.dispute a d pointer refusal = .ok none := by
  unfold dispute
  rw [hanswer]
  rfl

/-- Where the answer is no, what is said depends on the common ancestor alone. -/
lemma dispute_of_denied (hanswer : chain.isAncestor? a d = .ok (some false)) :
    chain.dispute a d pointer refusal =
      (chain.commonAncestor? a d).map fun common =>
        some (.invalid (common.map Block.hash) refusal) := by
  unfold dispute
  rw [hanswer]
  cases chain.commonAncestor? a d <;> rfl

lemma dispute_of_failed (hfail : chain.isAncestor? a d = .error failure) :
    chain.dispute a d pointer refusal = .error failure := by
  unfold dispute
  rw [hfail]
  rfl

lemma dispute_eq_none_iff :
    chain.dispute a d pointer refusal = .ok none ↔ chain.isAncestor? a d = .ok (some true) := by
  refine ⟨fun heq => ?_, dispute_of_settled⟩
  have hends := chain.dispute_ends a d pointer refusal
  rw [heq] at hends
  cases hends with
  | settled hanswer => exact hanswer

/-- A dispute is never the approval of pointers. -/
lemma dispute_ne_resolved : chain.dispute a d pointer refusal ≠ .ok (some (.resolved heads)) := by
  intro heq
  have hends := chain.dispute_ends a d pointer refusal
  rw [heq] at hends
  cases hends

/-- A refusal names the common ancestor, if there is one. -/
lemma exists_commonAncestor?_of_dispute {latest : Option Hash} {refusal' : Refusal}
    (heq : chain.dispute a d pointer refusal = .ok (some (.invalid latest refusal'))) :
    chain.isAncestor? a d = .ok (some false) ∧ refusal' = refusal ∧
      ∃ common, chain.commonAncestor? a d = .ok common ∧ common.map Block.hash = latest := by
  have hends := chain.dispute_ends a d pointer refusal
  rw [heq] at hends
  cases hends with
  | denied hanswer hcommon => exact ⟨hanswer, rfl, _, hcommon, rfl⟩

lemma objection?_eq_none_iff :
    chain.objection? ancestor descendant = .ok none ↔
      chain.isAncestor? ancestor.block descendant.block = .ok (some true) := by
  rw [objection?_eq_dispute, dispute_eq_none_iff]

/-! ## The order of the pointers -/

/-- The pointers that are set lie on one branch: finalized, safe and head from below. -/
structure Ordered (chain : Chain) (h : Heads) : Prop where
  finalized_head : ∀ f ∈ h.finalized, chain.isAncestor? f h.head = .ok (some true)
  safe_head : ∀ s ∈ h.safe, chain.isAncestor? s h.head = .ok (some true)
  finalized_safe : ∀ f ∈ h.finalized, ∀ s ∈ h.safe, chain.isAncestor? f s = .ok (some true)

lemma Ordered.grow (hh : chain.Ordered h) (hgrow : chain.GrowsTo chain') : chain'.Ordered h where
  finalized_head f hf := isAncestor?_grow hgrow (hh.finalized_head f hf)
  safe_head s hs := isAncestor?_grow hgrow (hh.safe_head s hs)
  finalized_safe f hf s hs := isAncestor?_grow hgrow (hh.finalized_safe f hf s hs)

/-- The comparison gets as far as this pair: it is set, and the pairs before it are in order. -/
inductive Checks (chain : Chain) (heads : Heads) : Named → Named → Prop where
  /-- The finalized block against the head. -/
  | finalizedHead {f : Block} (hf : heads.finalized = some f) :
      Checks chain heads ⟨.finalized, f⟩ ⟨.head, heads.head⟩
  /-- The safe block against the head. -/
  | safeHead {s : Block} (hs : heads.safe = some s)
      (hfh : ∀ f ∈ heads.finalized, chain.isAncestor? f heads.head = .ok (some true)) :
      Checks chain heads ⟨.safe, s⟩ ⟨.head, heads.head⟩
  /-- The finalized block against the safe one. -/
  | finalizedSafe {f s : Block} (hf : heads.finalized = some f) (hs : heads.safe = some s)
      (hfh : chain.isAncestor? f heads.head = .ok (some true))
      (hsh : chain.isAncestor? s heads.head = .ok (some true)) :
      Checks chain heads ⟨.finalized, f⟩ ⟨.safe, s⟩

lemma Checks.grow (hchecks : chain.Checks heads ancestor descendant)
    (hgrow : chain.GrowsTo chain') : chain'.Checks heads ancestor descendant := by
  cases hchecks with
  | finalizedHead hf => exact .finalizedHead hf
  | safeHead hs hfh => exact .safeHead hs fun f hf => isAncestor?_grow hgrow (hfh f hf)
  | finalizedSafe hf hs hfh hsh =>
    exact .finalizedSafe hf hs (isAncestor?_grow hgrow hfh) (isAncestor?_grow hgrow hsh)

lemma Checks.all {P : Block → Prop} (hchecks : chain.Checks heads ancestor descendant)
    (hheads : heads.All P) : P ancestor.block ∧ P descendant.block := by
  cases hchecks with
  | finalizedHead hf => exact ⟨hheads.finalized _ hf, hheads.head⟩
  | safeHead hs _ => exact ⟨hheads.safe _ hs, hheads.head⟩
  | finalizedSafe hf hs _ _ => exact ⟨hheads.finalized _ hf, hheads.safe _ hs⟩

/-- Unless the pointers lie on one branch, some pair is the first that is not in order. -/
lemma ordered_or_checks (chain : Chain) (heads : Heads) :
    chain.Ordered heads ∨
      ∃ ancestor descendant, chain.Checks heads ancestor descendant ∧
        chain.objection? ancestor descendant ≠ .ok none := by
  -- a pair is reached only if those before it are in order, so the cases are split in this order
  by_cases hfh : ∀ f ∈ heads.finalized, chain.isAncestor? f heads.head = .ok (some true)
  · by_cases hsh : ∀ s ∈ heads.safe, chain.isAncestor? s heads.head = .ok (some true)
    · by_cases hfs : ∀ f ∈ heads.finalized, ∀ s ∈ heads.safe,
          chain.isAncestor? f s = .ok (some true)
      · exact .inl ⟨hfh, hsh, hfs⟩
      · push Not at hfs
        obtain ⟨f, hf, s, hs, hne⟩ := hfs
        exact .inr ⟨_, _, .finalizedSafe hf hs (hfh f hf) (hsh s hs),
          mt objection?_eq_none_iff.1 hne⟩
    · push Not at hsh
      obtain ⟨s, hs, hne⟩ := hsh
      exact .inr ⟨_, _, .safeHead hs hfh, mt objection?_eq_none_iff.1 hne⟩
  · push Not at hfh
    obtain ⟨f, hf, hne⟩ := hfh
    exact .inr ⟨_, _, .finalizedHead hf, mt objection?_eq_none_iff.1 hne⟩

/-! ## One pair after the other -/

/-- Pairs in order are passed over. -/
lemma firstObjection?_cons_of_ordered {pair : Option Named × Option Named}
    (rest : List (Option Named × Option Named))
    (hpair : ∀ a ∈ pair.1, ∀ d ∈ pair.2, chain.isAncestor? a.block d.block = .ok (some true)) :
    chain.firstObjection? (pair :: rest) = chain.firstObjection? rest := by
  match pair with
  | (none, _) => simp only [firstObjection?]
  | (some _, none) => simp only [firstObjection?]
  | (some a, some d) =>
    rw [firstObjection?, objection?_eq_none_iff.2 (hpair a rfl d rfl)]
    rfl

/-- A pair that is not in order decides. -/
lemma firstObjection?_cons_of_objection (rest : List (Option Named × Option Named))
    (hobjection : chain.objection? ancestor descendant ≠ .ok none) :
    chain.firstObjection? ((some ancestor, some descendant) :: rest) =
      chain.objection? ancestor descendant := by
  rw [firstObjection?]
  cases hfound : chain.objection? ancestor descendant with
  | error failure => rfl
  | ok found =>
    cases found with
    | none => exact absurd hfound hobjection
    | some objection => rfl

/-- The pairs in the order in which they are compared. -/
def pairs (heads : Heads) : List (Option Named × Option Named) :=
  let head : Named := ⟨.head, heads.head⟩
  let safe := heads.safe.map (Named.mk .safe)
  let finalized := heads.finalized.map (Named.mk .finalized)
  [(finalized, some head), (safe, some head), (finalized, safe)]

lemma resolveBlocks_eq_map (chain : Chain) (heads : Heads) :
    chain.resolveBlocks heads =
      (chain.firstObjection? (pairs heads)).map fun objection =>
        objection.getD (.resolved heads) := by
  show (chain.firstObjection? (pairs heads) >>= _) = _
  cases chain.firstObjection? (pairs heads) with
  | error failure => rfl
  | ok found => cases found <;> rfl

lemma Ordered.resolveBlocks_eq (hordered : chain.Ordered heads) :
    chain.resolveBlocks heads = .ok (.resolved heads) := by
  have hnone : chain.firstObjection? (pairs heads) = .ok none := by
    unfold pairs
    rw [firstObjection?_cons_of_ordered, firstObjection?_cons_of_ordered,
      firstObjection?_cons_of_ordered, firstObjection?]
    · simpa using hordered.finalized_safe
    · simpa using hordered.safe_head
    · simpa using hordered.finalized_head
  rw [resolveBlocks_eq_map, hnone]
  rfl

/-- The first pair that is not in order is the first objection. -/
lemma Checks.firstObjection?_eq (hchecks : chain.Checks heads ancestor descendant)
    (hobjection : chain.objection? ancestor descendant ≠ .ok none) :
    chain.firstObjection? (pairs heads) = chain.objection? ancestor descendant := by
  unfold pairs
  cases hchecks with
  | finalizedHead hf =>
    rw [hf, Option.map_some, firstObjection?_cons_of_objection _ hobjection]
  | safeHead hs hfh =>
    rw [hs, Option.map_some, firstObjection?_cons_of_ordered,
      firstObjection?_cons_of_objection _ hobjection]
    simpa using hfh
  | finalizedSafe hf hs hfh hsh =>
    rw [hf, hs, Option.map_some, Option.map_some, firstObjection?_cons_of_ordered,
      firstObjection?_cons_of_ordered, firstObjection?_cons_of_objection _ hobjection]
    · simpa using hsh
    · simpa using hfh

/-- Where the comparison stops at a pair, it comes to what is said of that pair. -/
lemma Checks.resolveBlocks_eq (hchecks : chain.Checks heads ancestor descendant)
    (hobjection : chain.objection? ancestor descendant ≠ .ok none) :
    chain.resolveBlocks heads =
      (chain.objection? ancestor descendant).map fun objection =>
        objection.getD (.resolved heads) := by
  rw [resolveBlocks_eq_map, hchecks.firstObjection?_eq hobjection]

lemma Checks.objection?_eq (hchecks : chain.Checks heads ancestor descendant)
    (hobjection : chain.objection? ancestor descendant ≠ .ok none) :
    chain.objection? ancestor descendant = (chain.resolveBlocks heads).map some := by
  rw [hchecks.resolveBlocks_eq hobjection]
  cases hfound : chain.objection? ancestor descendant with
  | error failure => rfl
  | ok found =>
    cases found with
    | none => exact absurd hfound hobjection
    | some objection => rfl

/-- Pointers that the comparison does not give back are disputed at some pair. -/
theorem exists_checks {result : Except Failure Resolution}
    (h : chain.resolveBlocks heads = result) (hne : result ≠ .ok (.resolved heads)) :
    ∃ ancestor descendant, chain.Checks heads ancestor descendant ∧
      chain.objection? ancestor descendant = result.map some := by
  subst h
  obtain hordered | ⟨ancestor, descendant, hchecks, hobjection⟩ := chain.ordered_or_checks heads
  · exact absurd hordered.resolveBlocks_eq hne
  · exact ⟨ancestor, descendant, hchecks, hchecks.objection?_eq hobjection⟩

theorem resolveBlocks_eq_resolved_iff :
    chain.resolveBlocks heads = .ok (.resolved h) ↔ h = heads ∧ chain.Ordered heads := by
  constructor
  · intro heq
    obtain hordered | ⟨ancestor, descendant, hchecks, hobjection⟩ := chain.ordered_or_checks heads
    · cases heq.symm.trans hordered.resolveBlocks_eq
      exact ⟨rfl, hordered⟩
    · have hstop := hchecks.objection?_eq hobjection
      rw [heq] at hstop
      exact absurd hstop dispute_ne_resolved
  · rintro ⟨rfl, hordered⟩
    exact hordered.resolveBlocks_eq

end Chain

end ChainHead
