import ChainHead.Proofs.Ancestry

/-!
# Common ancestors

Two blocks are brought to one height, and from there their walks go down side by side until their
hashes agree.  The block at which they meet lies below both (`Chain.commonAncestor?_descends`), and
a meeting that was found is found again in a chain that has grown (`Chain.commonAncestor?_grow`).
-/

namespace ChainHead

namespace Chain

variable {chain chain' : Chain} {a b c : Block}

/-! ## Side by side -/

/-- Two walks meet where they stand, or their next steps lead to where they meet. -/
lemma meet_succ_eq_some_iff {steps : Nat} :
    chain.meet (steps + 1) a b = .ok (some c) ↔
      a.hash = b.hash ∧ a = c ∨
        a.hash ≠ b.hash ∧ ∃ p q, chain.parent? a = .ok (some p) ∧
          chain.parent? b = .ok (some q) ∧ chain.meet steps p q = .ok (some c) := by
  rw [meet]
  by_cases hsame : a.hash = b.hash
  · simp only [hsame, true_and, ne_eq, not_true_eq_false, false_and, or_false]
    exact ⟨fun h => Option.some.inj (Except.ok.inj h), fun h => h ▸ rfl⟩
  · simp only [hsame, false_and, false_or, ne_eq, not_false_eq_true, true_and]
    constructor
    · intro h
      obtain ⟨p, hp, h⟩ := bind_eq_ok_iff.1 h
      obtain ⟨q, hq, h⟩ := bind_eq_ok_iff.1 h
      match p, q with
      | some p, some q => exact ⟨p, q, hp, hq, h⟩
      | none, _ => cases h
      | some _, none => cases h
    · rintro ⟨p, q, hp, hq, h⟩
      exact bind_eq_ok_iff.2 ⟨_, hp, bind_eq_ok_iff.2 ⟨_, hq, h⟩⟩

lemma meet_zero_eq_some_iff :
    chain.meet 0 a b = .ok (some c) ↔ a.hash = b.hash ∧ a = c := by
  rw [meet]
  split_ifs with hsame
  · simp [hsame]
  · simp [hsame]

/-- The first walk goes down to where they meet, and the second one to a block of that hash. -/
lemma meet_descends {steps : Nat} (h : chain.meet steps a b = .ok (some c)) :
    chain.Descends a c ∧ ∃ c', chain.Descends b c' ∧ c'.hash = c.hash := by
  induction steps generalizing a b with
  | zero =>
    obtain ⟨hsame, rfl⟩ := meet_zero_eq_some_iff.1 h
    exact ⟨.refl _ _, b, .refl _ _, hsame.symm⟩
  | succ steps ih =>
    obtain ⟨hsame, rfl⟩ | ⟨-, p, q, hp, hq, h⟩ := meet_succ_eq_some_iff.1 h
    · exact ⟨.refl _ _, b, .refl _ _, hsame.symm⟩
    · obtain ⟨hpc, c', hqc, hhash⟩ := ih h
      exact ⟨(Descends.of_parent hp).trans hpc, c', (Descends.of_parent hq).trans hqc, hhash⟩

lemma meet_grow {steps : Nat} (hgrow : chain.GrowsTo chain')
    (h : chain.meet steps a b = .ok (some c)) : chain'.meet steps a b = .ok (some c) := by
  induction steps generalizing a b with
  | zero => exact meet_zero_eq_some_iff.2 (meet_zero_eq_some_iff.1 h)
  | succ steps ih =>
    refine meet_succ_eq_some_iff.2 ?_
    obtain hmet | ⟨hne, p, q, hp, hq, h⟩ := meet_succ_eq_some_iff.1 h
    · exact .inl hmet
    · exact .inr ⟨hne, p, q, parent?_grow hgrow hp, parent?_grow hgrow hq, ih h⟩

/-! ## From one height -/

lemma commonAncestor?_eq_some_iff :
    chain.commonAncestor? a b = .ok (some c) ↔
      ∃ x y, chain.ancestorAt? a (min a.number b.number) = .ok (some x) ∧
        chain.ancestorAt? b (min a.number b.number) = .ok (some y) ∧
        chain.meet (min a.number b.number).toNat x y = .ok (some c) := by
  unfold commonAncestor?
  constructor
  · intro h
    obtain ⟨x, hx, h⟩ := bind_eq_ok_iff.1 h
    obtain ⟨y, hy, h⟩ := bind_eq_ok_iff.1 h
    match x, y with
    | some x, some y => exact ⟨x, y, hx, hy, h⟩
    | none, _ => cases h
    | some _, none => cases h
  · rintro ⟨x, y, hx, hy, h⟩
    exact bind_eq_ok_iff.2 ⟨_, hx, bind_eq_ok_iff.2 ⟨_, hy, h⟩⟩

/-- A common ancestor that was found stays the one that is found. -/
theorem commonAncestor?_grow (hgrow : chain.GrowsTo chain')
    (h : chain.commonAncestor? a b = .ok (some c)) : chain'.commonAncestor? a b = .ok (some c) := by
  obtain ⟨x, y, hx, hy, h⟩ := commonAncestor?_eq_some_iff.1 h
  exact commonAncestor?_eq_some_iff.2
    ⟨x, y, ancestorAt?_grow hgrow hx, ancestorAt?_grow hgrow hy, meet_grow hgrow h⟩

/-- The common ancestor of stored blocks is a stored block from which both descend. -/
theorem commonAncestor?_descends (hf : chain.Faithful) (ha : chain.Stored a) (hb : chain.Stored b)
    (h : chain.commonAncestor? a b = .ok (some c)) :
    chain.Stored c ∧ chain.Descends a c ∧ chain.Descends b c := by
  obtain ⟨x, y, hx, hy, h⟩ := commonAncestor?_eq_some_iff.1 h
  obtain ⟨hxc, c', hyc, hhash⟩ := meet_descends h
  have hac : chain.Descends a c := (Descends.of_ancestorAt? hx).trans hxc
  have hbc : chain.Descends b c' := (Descends.of_ancestorAt? hy).trans hyc
  have hc := hac.stored hf ha
  -- the two walks end at one hash, and a hash belongs to one stored block
  have heq : c' = c := (hbc.stored hf hb).eq_of_hash_eq hc hhash
  exact ⟨hc, hac, heq ▸ hbc⟩

end Chain

end ChainHead
