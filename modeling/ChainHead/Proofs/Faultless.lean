import ChainHead.Proofs.Resolution

/-!
# What can fail

Whatever is asked of a chain is made of look-ups and of steps down to a parent.  It fails in some
way only if one of these does: if no look-up fails so, and no step from a block that can be met on
the way (`Chain.Spares`), then no walk does, nor does resolving a fork choice and judging it
(`Chain.Spares.judge`).
-/

namespace ChainHead

namespace Chain

variable {chain : Chain} {failure : Failure} {P : Block → Prop} {state : ForkchoiceState}
  {current heads new : Heads} {a b d x : Block} {steps : Nat}

/-- No look-up fails in this way, and no step down from a block with a property that all stored
blocks have. -/
structure Spares (chain : Chain) (failure : Failure) (P : Block → Prop) : Prop where
  read : ¬ chain.Fails failure
  found : ∀ hash b, chain.block? hash = .ok (some b) → P b
  step : ∀ b, P b → chain.parent? b ≠ .error failure

namespace Spares

/-! ## Walks -/

lemma of_parent? (h : chain.Spares failure P) (hx : chain.parent? b = .ok (some x)) : P x :=
  h.found _ x (parent?_eq_some_iff.1 hx).1

lemma descend (h : chain.Spares failure P) (hb : P b) :
    chain.descend steps b ≠ .error failure := by
  -- a step leads to a stored block, so the next step starts from one with the property again
  induction steps generalizing b with
  | zero =>
    intro hfail
    cases hfail
  | succ steps ih =>
    rw [Chain.descend]
    refine bind_ne_error (h.step b hb) fun below hbelow => ?_
    cases below with
    | none =>
      intro hfail
      cases hfail
    | some p => exact ih (h.of_parent? hbelow)

/-- What is met on the way down has the property too. -/
lemma of_descend (h : chain.Spares failure P) (hb : P b)
    (hx : chain.descend steps b = .ok (some x)) : P x := by
  induction steps generalizing b with
  | zero =>
    cases hx
    exact hb
  | succ steps ih =>
    obtain ⟨p, hp, hx⟩ := descend_succ_eq_some_iff.1 hx
    exact ih (h.of_parent? hp) hx

lemma ancestorAt? {number : UInt64} (h : chain.Spares failure P) (hb : P b) :
    chain.ancestorAt? b number ≠ .error failure := by
  unfold Chain.ancestorAt?
  split_ifs
  · exact nofun
  · exact h.descend hb

lemma isAncestor? (h : chain.Spares failure P) (hd : P d) :
    chain.isAncestor? a d ≠ .error failure := by
  unfold Chain.isAncestor?
  by_cases hlt : d.number < a.number
  · rw [if_pos hlt]
    exact nofun
  · rw [if_neg hlt]
    exact bind_ne_error (h.ancestorAt? hd) fun _ _ => nofun

lemma meet (h : chain.Spares failure P) (ha : P a) (hb : P b) :
    chain.meet steps a b ≠ .error failure := by
  induction steps generalizing a b with
  | zero => exact nofun
  | succ steps ih =>
    rw [Chain.meet]
    by_cases hsame : a.hash = b.hash
    · rw [if_pos hsame]
      exact nofun
    · rw [if_neg hsame]
      refine bind_ne_error (h.step a ha) fun p hp => bind_ne_error (h.step b hb) fun q hq => ?_
      match p, q with
      | some p, some q => exact ih (h.of_parent? hp) (h.of_parent? hq)
      | none, _ => exact nofun
      | some _, none => exact nofun

lemma commonAncestor? (h : chain.Spares failure P) (ha : P a) (hb : P b) :
    chain.commonAncestor? a b ≠ .error failure := by
  unfold Chain.commonAncestor?
  refine bind_ne_error (h.ancestorAt? ha) fun x hx => bind_ne_error (h.ancestorAt? hb) fun y hy => ?_
  match x, y with
  | some x, some y =>
    exact h.meet (h.of_descend ha (ancestorAt?_eq_some_iff.1 hx).2)
      (h.of_descend hb (ancestorAt?_eq_some_iff.1 hy).2)
  | none, _ => exact nofun
  | some _, none => exact nofun

/-! ## Fork choices -/

lemma dispute {pointer : Pointer} {refusal : Refusal} (h : chain.Spares failure P) (ha : P a)
    (hd : P d) : chain.dispute a d pointer refusal ≠ .error failure := by
  unfold Chain.dispute
  refine bind_ne_error (h.isAncestor? hd) fun answer _ => ?_
  match answer with
  | some true => exact nofun
  | none => exact nofun
  | some false => exact bind_ne_error (h.commonAncestor? ha hd) fun _ _ => nofun

lemma resolveBlocks (h : chain.Spares failure P) (hheads : heads.All P) :
    chain.resolveBlocks heads ≠ .error failure := by
  intro hfail
  obtain ⟨ancestor, descendant, hchecks, hobjection⟩ := exists_checks hfail nofun
  obtain ⟨ha, hd⟩ := hchecks.all hheads
  exact h.dispute ha hd hobjection

theorem resolve (h : chain.Spares failure P) : chain.resolve state ≠ .error failure := by
  intro hfail
  have hends := chain.ends state
  generalize chain.resolve state = result at hfail hends
  cases hends with
  | zeroHead _ => cases hfail
  | rejectedHead _ _ => cases hfail
  | missing _ _ _ => cases hfail
  | compared hnames => exact h.resolveBlocks (hnames.all h.found) hfail
  | unreadable hfails =>
    cases hfail
    exact h.read hfails

lemma finalityObjection? (h : chain.Spares failure P) (hcurrent : ∀ f ∈ current.finalized, P f)
    (hnew : new.All P) : chain.finalityObjection? current new ≠ .error failure := by
  have hends := chain.finality_ends current new
  generalize chain.finalityObjection? current new = result at hends
  cases hends with
  | unbound _ => exact nofun
  | finalizedUnset _ _ => exact nofun
  | safeUnset _ _ _ => exact nofun
  | @compared f g hf hg _ => exact h.dispute (hcurrent f hf) (hnew.finalized g hg)

/-- A judgement does not fail either, whatever pointers are set, as long as a finalized block among
them has the property. -/
theorem judge (h : chain.Spares failure P) (hcurrent : ∀ f ∈ current.finalized, P f) :
    chain.judge current state ≠ .error failure := by
  unfold Chain.judge
  refine bind_ne_error h.resolve fun resolution hresolve => ?_
  match resolution with
  | .unknown _ => exact nofun
  | .invalid _ _ => exact nofun
  | .resolved new =>
    have hnew := (resolve_eq_resolved_iff.1 hresolve).names.all h.found
    exact bind_ne_error (h.finalityObjection? hcurrent hnew) fun _ _ => nofun

end Spares

end Chain

end ChainHead
