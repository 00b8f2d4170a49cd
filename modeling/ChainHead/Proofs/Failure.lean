import Mathlib.Tactic.Common
import ChainHead.Failure

/-!
# Steps that may fail

What runs in steps gives a result if every step gives one, and it fails if some step is the first
to fail.  A height has a successor unless it is the greatest.
-/

namespace ChainHead

variable {ε α β : Type} {x : Except ε α} {f : α → Except ε β}

/-- A result comes of two steps if the first gives a value from which the second gives it. -/
lemma bind_eq_ok_iff {r : β} :
    (x >>= f) = .ok r ↔ ∃ a, x = .ok a ∧ f a = .ok r := by
  cases x with
  | error e =>
    constructor
    · intro h
      cases h
    · rintro ⟨_, h, -⟩
      cases h
  | ok a =>
    constructor
    · intro h
      exact ⟨a, rfl, h⟩
    · rintro ⟨_, h, hf⟩
      cases h
      exact hf

lemma map_eq_ok_iff {g : α → β} {r : β} : x.map g = .ok r ↔ ∃ a, x = .ok a ∧ g a = r := by
  cases x with
  | error e => exact iff_of_false nofun (by rintro ⟨_, h, -⟩; cases h)
  | ok a => exact ⟨fun h => ⟨a, rfl, Except.ok.inj h⟩, by rintro ⟨_, h, rfl⟩; cases h; rfl⟩

/-- It fails if the first step fails, or if that gives a value from which the second one fails. -/
lemma bind_eq_error_iff {failure : ε} :
    (x >>= f) = .error failure ↔
      x = .error failure ∨ ∃ a, x = .ok a ∧ f a = .error failure := by
  cases x with
  | error other =>
    constructor
    · intro h
      cases h
      exact .inl rfl
    · rintro (h | ⟨_, h, -⟩)
      · cases h
        rfl
      · cases h
  | ok a =>
    constructor
    · intro h
      exact .inr ⟨a, rfl, h⟩
    · rintro (h | ⟨_, h, hf⟩)
      · cases h
      · cases h
        exact hf

/-- Two steps do not fail in some way if neither of them does. -/
lemma bind_ne_error {failure : ε} (hx : x ≠ .error failure)
    (hf : ∀ a, x = .ok a → f a ≠ .error failure) : (x >>= f) ≠ .error failure := by
  intro h
  obtain hfail | ⟨a, ha, hfail⟩ := bind_eq_error_iff.1 h
  · exact hx hfail
  · exact hf a ha hfail

lemma successor_eq_ok_iff {n m : UInt64} : successor n = .ok m ↔ n.toNat + 1 = m.toNat := by
  unfold successor
  split_ifs with hn
  · have hadd : (n + 1).toNat = n.toNat + 1 := by
      rw [UInt64.toNat_add, UInt64.toNat_one]
      exact Nat.mod_eq_of_lt hn
    rw [Except.ok.injEq, ← UInt64.toNat_inj, hadd]
  · have hm := m.toNat_lt
    simp only [UInt64.size] at hn
    constructor
    · intro h
      cases h
    · intro h
      omega

lemma successor_eq_overflow_iff {n : UInt64} :
    successor n = .error .overflow ↔ ¬ n.toNat + 1 < UInt64.size := by
  unfold successor
  split_ifs with hn
  · exact iff_of_false nofun (not_not.2 hn)
  · exact iff_of_true rfl hn

end ChainHead
