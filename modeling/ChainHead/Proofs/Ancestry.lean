import ChainHead.Ancestry
import ChainHead.Proofs.Failure

/-!
# Descent

A block descends from another one if going down from it reaches the other
(`Chain.Descends`).  Descent is reflexive and transitive, and what a way down leads to stays the same
while blocks are added (`Chain.descend_grow`).

`Chain.isAncestor?` compares hashes at one height.  In a chain that finds under a hash only blocks
of that hash, and between blocks that are stored, it says yes exactly if there is descent
(`Chain.isAncestor?_eq_true_iff`).
-/

namespace ChainHead

namespace Chain

variable {chain chain' : Chain} {a b c d p x : Block}

/-! ## What a chain holds -/

/-- The block is what the chain finds under its hash. -/
def Stored (chain : Chain) (b : Block) : Prop := chain.block? b.hash = .ok (some b)

/-- What the chain finds under a hash has that hash. -/
def Faithful (chain : Chain) : Prop :=
  ∀ hash b, chain.block? hash = .ok (some b) → b.hash = hash

/-- Every block that is found in the one chain is found in the other. -/
def GrowsTo (chain chain' : Chain) : Prop :=
  ∀ hash b, chain.block? hash = .ok (some b) → chain'.block? hash = .ok (some b)

lemma GrowsTo.refl (chain : Chain) : chain.GrowsTo chain := fun _ _ h => h

lemma GrowsTo.trans {chain'' : Chain} (h : chain.GrowsTo chain') (h' : chain'.GrowsTo chain'') :
    chain.GrowsTo chain'' :=
  fun hash b hb => h' hash b (h hash b hb)

lemma Stored.grow (h : chain.Stored b) (hgrow : chain.GrowsTo chain') : chain'.Stored b :=
  hgrow _ _ h

lemma Faithful.stored (hf : chain.Faithful) {hash : Hash}
    (h : chain.block? hash = .ok (some b)) : chain.Stored b := by
  rw [Stored, hf _ _ h]
  exact h

lemma Faithful.of_growsTo (hf : chain'.Faithful) (hgrow : chain.GrowsTo chain') : chain.Faithful :=
  fun hash b h => hf hash b (hgrow hash b h)

/-- A hash belongs to one stored block. -/
lemma Stored.eq_of_hash_eq (ha : chain.Stored a) (hb : chain.Stored b) (h : a.hash = b.hash) :
    a = b := by
  rw [Stored, h, hb] at ha
  exact (Option.some.inj (Except.ok.inj ha)).symm

/-! ## One step down -/

/-- The parent of a block is what is found under its parent hash, at the height below. -/
theorem parent?_eq_some_iff :
    chain.parent? b = .ok (some p) ↔
      chain.block? b.parentHash = .ok (some p) ∧ p.number.toNat + 1 = b.number.toNat := by
  unfold parent? Block.isGenesis
  by_cases hzero : b.number = 0
  · simp only [hzero, decide_true, if_true, UInt64.toNat_zero]
    constructor
    · intro h
      cases h
    · rintro ⟨-, h⟩
      omega
  · simp only [hzero, decide_false, Bool.false_eq_true, if_false]
    rw [bind_eq_ok_iff]
    constructor
    · rintro ⟨found, hfound, h⟩
      cases found with
      | none => cases h
      | some q =>
        obtain ⟨next, hnext, h⟩ := bind_eq_ok_iff.1 h
        split_ifs at h with heq
        cases h
        exact ⟨hfound, heq ▸ successor_eq_ok_iff.1 hnext⟩
    · rintro ⟨hfound, hnumber⟩
      refine ⟨some p, hfound, ?_⟩
      simp only [successor_eq_ok_iff.2 hnumber]
      show (if b.number = b.number then _ else _) = _
      rw [if_pos rfl]
      rfl

lemma parent?_grow (hgrow : chain.GrowsTo chain') (h : chain.parent? b = .ok (some p)) :
    chain'.parent? b = .ok (some p) := by
  obtain ⟨hfound, hnumber⟩ := parent?_eq_some_iff.1 h
  exact parent?_eq_some_iff.2 ⟨hgrow _ _ hfound, hnumber⟩

/-! ## Going down -/

lemma descend_succ_eq_some_iff {steps : Nat} :
    chain.descend (steps + 1) b = .ok (some x) ↔
      ∃ p, chain.parent? b = .ok (some p) ∧ chain.descend steps p = .ok (some x) := by
  rw [descend, bind_eq_ok_iff]
  constructor
  · rintro ⟨_ | p, hp, h⟩
    · cases h
    · exact ⟨p, hp, h⟩
  · rintro ⟨p, hp, h⟩
    exact ⟨some p, hp, h⟩

/-- Each step goes down by one. -/
lemma descend_number {steps : Nat} (h : chain.descend steps b = .ok (some x)) :
    x.number.toNat + steps = b.number.toNat := by
  induction steps generalizing b with
  | zero =>
    cases h
    rfl
  | succ steps ih =>
    obtain ⟨p, hp, h⟩ := descend_succ_eq_some_iff.1 h
    have hnumber := (parent?_eq_some_iff.1 hp).2
    have hrest := ih h
    omega

lemma descend_add {m n : Nat} (hx : chain.descend m b = .ok (some x))
    (hc : chain.descend n x = .ok (some c)) : chain.descend (m + n) b = .ok (some c) := by
  induction m generalizing b with
  | zero =>
    cases hx
    rwa [Nat.zero_add]
  | succ m ih =>
    obtain ⟨p, hp, hx⟩ := descend_succ_eq_some_iff.1 hx
    rw [Nat.succ_add]
    exact descend_succ_eq_some_iff.2 ⟨p, hp, ih hx⟩

lemma descend_grow {steps : Nat} (hgrow : chain.GrowsTo chain')
    (h : chain.descend steps b = .ok (some x)) : chain'.descend steps b = .ok (some x) := by
  induction steps generalizing b with
  | zero => exact h
  | succ steps ih =>
    obtain ⟨p, hp, h⟩ := descend_succ_eq_some_iff.1 h
    exact descend_succ_eq_some_iff.2 ⟨p, parent?_grow hgrow hp, ih h⟩

/-- From a stored block one only meets stored blocks. -/
lemma descend_stored {steps : Nat} (hf : chain.Faithful) (hb : chain.Stored b)
    (h : chain.descend steps b = .ok (some x)) : chain.Stored x := by
  induction steps generalizing b with
  | zero =>
    cases h
    exact hb
  | succ steps ih =>
    obtain ⟨p, hp, h⟩ := descend_succ_eq_some_iff.1 h
    exact ih (hf.stored (parent?_eq_some_iff.1 hp).1) h

/-- What stands at a height is what so many steps lead down to. -/
lemma ancestorAt?_eq_some_iff {number : UInt64} :
    chain.ancestorAt? b number = .ok (some x) ↔
      number ≤ b.number ∧ chain.descend (b.number.toNat - number.toNat) b = .ok (some x) := by
  unfold ancestorAt?
  by_cases hlt : b.number < number
  · have hle : ¬ number ≤ b.number := UInt64.not_le.2 hlt
    simp only [if_pos hlt, hle, false_and, iff_false]
    intro h
    cases h
  · simp only [if_neg hlt, UInt64.not_lt.1 hlt, true_and]

lemma ancestorAt?_grow {number : UInt64} (hgrow : chain.GrowsTo chain')
    (h : chain.ancestorAt? b number = .ok (some x)) :
    chain'.ancestorAt? b number = .ok (some x) := by
  obtain ⟨hle, hx⟩ := ancestorAt?_eq_some_iff.1 h
  exact ancestorAt?_eq_some_iff.2 ⟨hle, descend_grow hgrow hx⟩

/-! ## Descent -/

/-- Going down from the one block reaches the other. -/
def Descends (chain : Chain) (d a : Block) : Prop :=
  ∃ steps, chain.descend steps d = .ok (some a)

lemma Descends.refl (chain : Chain) (b : Block) : chain.Descends b b := ⟨0, rfl⟩

lemma Descends.of_parent (h : chain.parent? b = .ok (some p)) : chain.Descends b p :=
  ⟨1, descend_succ_eq_some_iff.2 ⟨p, h, rfl⟩⟩

lemma Descends.of_ancestorAt? {number : UInt64} (h : chain.ancestorAt? b number = .ok (some x)) :
    chain.Descends b x :=
  ⟨_, (ancestorAt?_eq_some_iff.1 h).2⟩

lemma Descends.stored (h : chain.Descends d a) (hf : chain.Faithful) (hd : chain.Stored d) :
    chain.Stored a := by
  obtain ⟨steps, h⟩ := h
  exact descend_stored hf hd h

lemma Descends.trans (hcb : chain.Descends c b) (hba : chain.Descends b a) :
    chain.Descends c a := by
  obtain ⟨m, hm⟩ := hcb
  obtain ⟨n, hn⟩ := hba
  exact ⟨m + n, descend_add hm hn⟩

/-! ## The test for ancestors -/

/-- The test says yes if the block at the height of the one has its hash. -/
lemma isAncestor?_eq_true_iff_descend :
    chain.isAncestor? a d = .ok (some true) ↔
      a.number ≤ d.number ∧
        ∃ x, chain.descend (d.number.toNat - a.number.toNat) d = .ok (some x) ∧
          x.hash = a.hash := by
  unfold isAncestor? ancestorAt?
  by_cases hlt : d.number < a.number
  · have hle : ¬ a.number ≤ d.number := UInt64.not_le.2 hlt
    simp only [if_pos hlt, hle, false_and, iff_false]
    intro h
    cases h
  · simp only [if_neg hlt, UInt64.not_lt.1 hlt, true_and]
    rw [bind_eq_ok_iff]
    constructor
    · rintro ⟨_ | x, hx, h⟩
      · cases h
      · refine ⟨x, hx, ?_⟩
        have : decide (x.hash = a.hash) = true := Option.some.inj (Except.ok.inj h)
        exact of_decide_eq_true this
    · rintro ⟨x, hx, hhash⟩
      refine ⟨some x, hx, ?_⟩
      rw [Option.map_some, decide_eq_true hhash]
      rfl

/-- Either answer of the test lasts while the chain grows; only an open one may change. -/
lemma isAncestor?_grow {answer : Bool} (hgrow : chain.GrowsTo chain')
    (h : chain.isAncestor? a d = .ok (some answer)) :
    chain'.isAncestor? a d = .ok (some answer) := by
  unfold isAncestor? at h ⊢
  by_cases hlt : d.number < a.number
  · rw [if_pos hlt] at h ⊢
    exact h
  · rw [if_neg hlt] at h ⊢
    obtain ⟨_ | x, hx, h⟩ := bind_eq_ok_iff.1 h
    · cases h
    · exact bind_eq_ok_iff.2 ⟨_, ancestorAt?_grow hgrow hx, h⟩

/-- A block counts as its own ancestor, whatever is stored. -/
lemma isAncestor?_self (chain : Chain) (b : Block) : chain.isAncestor? b b = .ok (some true) := by
  refine isAncestor?_eq_true_iff_descend.2 ⟨UInt64.le_refl _, b, ?_, rfl⟩
  rw [Nat.sub_self]
  rfl

/-- Between stored blocks the test says yes exactly if there is descent. -/
theorem isAncestor?_eq_true_iff (hf : chain.Faithful) (ha : chain.Stored a)
    (hd : chain.Stored d) : chain.isAncestor? a d = .ok (some true) ↔ chain.Descends d a := by
  rw [isAncestor?_eq_true_iff_descend]
  constructor
  · rintro ⟨-, x, hx, hhash⟩
    have hxa : x = a := (descend_stored hf hd hx).eq_of_hash_eq ha hhash
    exact ⟨_, hxa ▸ hx⟩
  · rintro ⟨steps, h⟩
    have hnumber := descend_number h
    have hsteps : d.number.toNat - a.number.toNat = steps := by omega
    exact ⟨UInt64.le_iff_toNat_le.2 (by omega), a, hsteps ▸ h, rfl⟩

lemma isAncestor?_trans (hf : chain.Faithful) (ha : chain.Stored a) (hb : chain.Stored b)
    (hc : chain.Stored c) (hab : chain.isAncestor? a b = .ok (some true))
    (hbc : chain.isAncestor? b c = .ok (some true)) :
    chain.isAncestor? a c = .ok (some true) := by
  rw [isAncestor?_eq_true_iff hf ha hb] at hab
  rw [isAncestor?_eq_true_iff hf hb hc] at hbc
  rw [isAncestor?_eq_true_iff hf ha hc]
  exact hbc.trans hab

end Chain

end ChainHead
