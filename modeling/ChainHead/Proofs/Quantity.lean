import Mathlib.Data.Nat.Digits.Lemmas
import ChainHead.Json.Record
import ChainHead.Settings.Reader
import ChainHead.Proofs.Failure

/-!
# The grammar of quantities

A run of hexadecimal digits spells the number that they add up to, each place counting sixteen
times the place behind it (`Hex.Spells`).  A text spells a number as a quantity if it is `0x`, at
most one `+`, and a run of digits that spells the number (`Quantity.Spells`).  Leading zeros, the
sign and the case of the digits are free, so a number has many spellings, of which one is the
shortest in lower case (`Quantity.Shortest`).

What is read from a text is the number that it spells, unless that number takes more than 64 bits
(`Quantity.ofText_eq_ok_iff`), and what is written for a number is its shortest spelling
(`Quantity.shortest_iff`).  The readers and the writer of the values in which quantities stand keep
to this grammar (`Quantity.codec_keeps_grammar`).
-/

namespace ChainHead

/-! ## Digits -/

namespace Hex

/-- The character is the digit of this value, in lower or in upper case. -/
def IsDigit (c : Char) (d : Nat) : Prop := d < 16 ∧ c.toLower = Nat.digitChar d

/-- The digits spell the number.  The last one counts least. -/
def Spells (cs : List Char) (n : Nat) : Prop :=
  ∃ ds, List.Forall₂ IsDigit cs.reverse ds ∧ Nat.ofDigits 16 ds = n

variable {c : Char} {cs : List Char} {d m n : Nat}

lemma toNat_le_toNat_toLower (c : Char) : c.toNat ≤ c.toLower.toNat := by
  unfold Char.toLower
  split_ifs with h
  · have hle : c.val.toNat ≤ 90 := h.2
    have hadd : (c.val + ('a'.val - 'A'.val)).toNat = c.val.toNat + 32 := by
      have hshift : ('a'.val - 'A'.val).toNat = 32 := rfl
      rw [UInt32.toNat_add, hshift]
      exact Nat.mod_eq_of_lt (by omega)
    show c.val.toNat ≤ (c.val + ('a'.val - 'A'.val)).toNat
    omega
  · exact Nat.le_refl _

/-- A digit is one of the first 128 characters. -/
lemma IsDigit.toNat_lt (h : IsDigit c d) : c.toNat < 128 := by
  have hlower := toNat_le_toNat_toLower c
  have hdigit : ∀ d : Fin 16, (Nat.digitChar d).toNat < 128 := by decide
  rw [h.2] at hlower
  exact Nat.lt_of_le_of_lt hlower (hdigit ⟨d, h.1⟩)

lemma bounds_of_digit? (h : digit? c = some d) : c.toNat < 128 ∧ d < 16 := by
  have hle {upper : Char} (h : c ≤ upper) : c.toNat ≤ upper.toNat := h
  unfold digit? at h
  split_ifs at h with h₁ h₂ h₃
  all_goals obtain rfl := Option.some.inj h
  · have := hle h₁.2
    simp only [Char.reduceToNat] at this ⊢
    omega
  · have := hle h₂.2
    simp only [Char.reduceToNat] at this ⊢
    omega
  · have := hle h₃.2
    simp only [Char.reduceToNat] at this ⊢
    omega

/-- The reader of digits tried on all characters among which there are digits. -/
lemma digit?_ofNat_eq_some_iff : ∀ (k : Fin 128) (d : Fin 16),
    digit? (Char.ofNat k) = some d.val ↔ (Char.ofNat k).toLower = Nat.digitChar d := by
  decide +kernel

lemma digit?_eq_some_iff : digit? c = some d ↔ IsDigit c d := by
  have htable (hc : c.toNat < 128) (hd : d < 16) :
      digit? c = some d ↔ c.toLower = Nat.digitChar d := by
    simpa using digit?_ofNat_eq_some_iff ⟨c.toNat, hc⟩ ⟨d, hd⟩
  constructor
  · intro h
    obtain ⟨hc, hd⟩ := bounds_of_digit? h
    exact ⟨hd, (htable hc hd).1 h⟩
  · intro h
    exact (htable h.toNat_lt h.1).2 h.2

/-! ### Runs of digits -/

@[simp]
lemma spells_nil_iff : Spells [] n ↔ n = 0 := by
  simp [Spells, eq_comm]

/-- One more digit behind the run. -/
@[simp]
lemma spells_concat_iff :
    Spells (cs ++ [c]) n ↔ ∃ m d, Spells cs m ∧ IsDigit c d ∧ 16 * m + d = n := by
  unfold Spells
  rw [List.reverse_append, List.reverse_singleton, List.singleton_append]
  constructor
  · rintro ⟨ds, hds, hn⟩
    obtain ⟨d, rest, hd, hrest, rfl⟩ := List.forall₂_cons_left_iff.1 hds
    refine ⟨Nat.ofDigits 16 rest, d, ⟨rest, hrest, rfl⟩, hd, ?_⟩
    rw [← hn, Nat.ofDigits_cons]
    omega
  · rintro ⟨m, d, ⟨ds, hds, rfl⟩, hd, hn⟩
    refine ⟨d :: ds, hds.cons hd, ?_⟩
    rw [← hn, Nat.ofDigits_cons]
    omega

lemma lt_of_mem_of_forall₂ {ds : List Nat} (h : List.Forall₂ IsDigit cs ds) : ∀ d ∈ ds, d < 16 := by
  induction h with
  | nil => simp
  | cons hd _ ih => exact List.forall_mem_cons.2 ⟨hd.1, ih⟩

lemma Spells.lt_pow_length (h : Spells cs n) : n < 16 ^ cs.length := by
  obtain ⟨ds, hds, rfl⟩ := h
  have hlength : ds.length = cs.length := by simpa using hds.length_eq.symm
  rw [← hlength]
  exact Nat.ofDigits_lt_base_pow_length (by decide) (lt_of_mem_of_forall₂ hds)

lemma exists_isDigit_of_forall₂ {ds : List Nat} (h : List.Forall₂ IsDigit cs ds) :
    ∀ c ∈ cs, ∃ d, IsDigit c d := by
  induction h with
  | nil => simp
  | cons hd _ ih => exact List.forall_mem_cons.2 ⟨⟨_, hd⟩, ih⟩

lemma Spells.exists_isDigit_of_mem (h : Spells cs n) (hc : c ∈ cs) : ∃ d, IsDigit c d := by
  obtain ⟨ds, hds, -⟩ := h
  exact exists_isDigit_of_forall₂ hds c (List.mem_reverse.2 hc)

lemma eq_map_of_forall₂ {ds : List Nat} (h : List.Forall₂ IsDigit cs ds)
    (hlower : ∀ c ∈ cs, c.toLower = c) : cs = ds.map Nat.digitChar := by
  induction h with
  | nil => rfl
  | cons hd _ ih =>
    obtain ⟨hc, hcs⟩ := List.forall_mem_cons.1 hlower
    rw [List.map_cons, ← ih hcs, ← hd.2, hc]

/-- In lower case, a number has one run of digits of each length at most. -/
lemma Spells.eq_of_length_eq {cs' : List Char} (h : Spells cs n) (h' : Spells cs' n)
    (hlength : cs.length = cs'.length) (hlower : ∀ c ∈ cs, c.toLower = c)
    (hlower' : ∀ c ∈ cs', c.toLower = c) : cs = cs' := by
  obtain ⟨ds, hds, rfl⟩ := h
  obtain ⟨ds', hds', hvalue⟩ := h'
  have hsame : ds = ds' := by
    refine Nat.ofDigits_inj_of_len_eq (b := 16) (by decide) ?_ (lt_of_mem_of_forall₂ hds)
      (lt_of_mem_of_forall₂ hds') hvalue.symm
    rw [← hds.length_eq, ← hds'.length_eq, List.length_reverse, List.length_reverse, hlength]
  have hreverse : cs.reverse = cs'.reverse := by
    rw [eq_map_of_forall₂ hds (by simpa using hlower),
      eq_map_of_forall₂ hds' (by simpa using hlower'), hsame]
  exact List.reverse_injective hreverse

/-! ### The digits that are written -/

lemma isDigit_digitChar (hd : d < 16) : IsDigit (Nat.digitChar d) d :=
  digit?_eq_some_iff.1 (digit?_digitChar ⟨d, hd⟩)

/-- The digits that are written have the values of the places of the number.  The last digit comes
with the remainder, and the others with the quotient. -/
lemma exists_values_ofNat (n : Nat) : ∃ ds : List Nat, (∀ d ∈ ds, d < 16) ∧
    (ofNat n).reverse = ds.map Nat.digitChar ∧ Nat.ofDigits 16 ds = n := by
  induction n using Nat.strongRecOn with
  | _ n ih =>
    by_cases hn : n < 16
    · refine ⟨[n], by simpa using hn, ?_, Nat.ofDigits_singleton⟩
      rw [ofNat, Nat.toDigits_of_lt_base hn]
      rfl
    · obtain ⟨ds, hds, hdigits, hvalue⟩ := ih (n / 16) (by omega)
      refine ⟨n % 16 :: ds, List.forall_mem_cons.2 ⟨by omega, hds⟩, ?_, ?_⟩
      · rw [ofNat] at hdigits ⊢
        rw [Nat.toDigits_of_base_le (by decide) (by omega), List.reverse_append, hdigits]
        rfl
      · rw [Nat.ofDigits_cons, hvalue]
        omega

lemma spells_ofNat (n : Nat) : Spells (ofNat n) n := by
  obtain ⟨ds, hds, hdigits, hvalue⟩ := exists_values_ofNat n
  refine ⟨ds, ?_, hvalue⟩
  rw [hdigits, List.forall₂_map_left_iff, List.forall₂_same]
  intro d hd
  exact isDigit_digitChar (hds d hd)

lemma toLower_of_mem_ofNat (n : Nat) : ∀ c ∈ ofNat n, c.toLower = c := by
  obtain ⟨ds, hds, hdigits, -⟩ := exists_values_ofNat n
  have hlower : ∀ d : Fin 16, (Nat.digitChar d).toLower = Nat.digitChar d := by decide
  intro c hc
  rw [← List.mem_reverse, hdigits, List.mem_map] at hc
  obtain ⟨d, hd, rfl⟩ := hc
  exact hlower ⟨d, hds d hd⟩

/-- No run of digits that spells the number is shorter. -/
lemma Spells.length_ofNat_le (h : Spells cs n) (hcs : cs ≠ []) :
    (ofNat n).length ≤ cs.length :=
  (Nat.length_toDigits_le_iff (by decide) (List.length_pos_iff.2 hcs)).2 h.lt_pow_length

end Hex

/-! ## Quantities -/

namespace Quantity

/-- The text is `0x`, at most one sign, and digits that spell the number. -/
def Spells (s : String) (n : Nat) : Prop :=
  ∃ sign digits : String, s = "0x" ++ sign ++ digits ∧ (sign = "" ∨ sign = "+") ∧ digits ≠ "" ∧
    Hex.Spells digits.toList n

/-- The text is `0x` and lower-case digits that spell the number, and no text that spells the number
is shorter. -/
structure Shortest (s : String) (n : Nat) : Prop where
  spelled : ∃ digits : String, s = "0x" ++ digits ∧ digits ≠ "" ∧ Hex.Spells digits.toList n
  lower : ∀ c ∈ s.toList, c.toLower = c
  length_le : ∀ t, Spells t n → s.length ≤ t.length

variable {c : Char} {cs : List Char} {m n : Nat} {s : String} {q : UInt64}

/-! ### Reading -/

lemma snoc_eq_ok_iff :
    snoc m c = .ok n ↔ ∃ d, Hex.IsDigit c d ∧ 16 * m + d = n ∧ n < UInt64.size := by
  unfold snoc
  rcases hc : Hex.digit? c with _ | d
  · simp [← Hex.digit?_eq_some_iff, hc]
  · have hd (d' : Nat) : Hex.IsDigit c d' ↔ d = d' := by
      rw [← Hex.digit?_eq_some_iff, hc, Option.some_inj]
    simp only [hd, exists_eq_left']
    split_ifs with hsize
    · constructor
      · rintro ⟨⟩
        exact ⟨rfl, hsize⟩
      · rintro ⟨rfl, -⟩
        rfl
    · constructor
      · rintro ⟨⟩
      · rintro ⟨rfl, hlt⟩
        exact absurd hlt hsize

/-- The digits are read from the left, so the run grows at its end. -/
lemma foldlM_snoc_concat (cs : List Char) (c : Char) :
    (cs ++ [c]).foldlM snoc 0 = cs.foldlM snoc 0 >>= fun m => snoc m c := by
  rw [List.foldlM_append]
  congr 1
  funext m
  rw [List.foldlM_cons]
  cases snoc m c <;> rfl

lemma foldlM_snoc_eq_ok_iff :
    cs.foldlM snoc 0 = .ok n ↔ Hex.Spells cs n ∧ n < UInt64.size := by
  induction cs using List.reverseRecOn generalizing n with
  | nil =>
    rw [List.foldlM_nil, Hex.spells_nil_iff]
    constructor
    · rintro ⟨⟩
      exact ⟨rfl, by decide⟩
    · rintro ⟨rfl, -⟩
      rfl
  | append_singleton cs c ih =>
    rw [foldlM_snoc_concat, bind_eq_ok_iff, Hex.spells_concat_iff]
    constructor
    · rintro ⟨m, hm, hn⟩
      obtain ⟨d, hd, hvalue, hsize⟩ := snoc_eq_ok_iff.1 hn
      exact ⟨⟨m, d, (ih.1 hm).1, hd, hvalue⟩, hsize⟩
    · rintro ⟨⟨m, d, hm, hd, hvalue⟩, hsize⟩
      exact ⟨m, ih.2 ⟨hm, by omega⟩, snoc_eq_ok_iff.2 ⟨d, hd, hvalue, hsize⟩⟩

/-- Once the value is too large, no further digit is looked at. -/
lemma foldlM_snoc_eq_overflow (h : Hex.Spells cs n) (hn : UInt64.size ≤ n) :
    cs.foldlM snoc 0 = .error .overflow := by
  induction cs using List.reverseRecOn generalizing n with
  | nil =>
    have hsize : 0 < UInt64.size := by decide
    have := Hex.spells_nil_iff.1 h
    omega
  | append_singleton cs c ih =>
    obtain ⟨m, d, hm, hd, hvalue⟩ := Hex.spells_concat_iff.1 h
    rw [foldlM_snoc_concat, bind_eq_error_iff]
    by_cases hsize : m < UInt64.size
    · refine .inr ⟨m, foldlM_snoc_eq_ok_iff.2 ⟨hm, hsize⟩, ?_⟩
      have hdigit := Hex.digit?_eq_some_iff.2 hd
      rw [snoc, hdigit]
      simp only
      rw [if_neg (by omega)]
    · exact .inl (ih hm (by omega))

lemma ofDigits_eq_ok_iff : ofDigits cs = .ok q ↔ Hex.Spells cs q.toNat := by
  rw [ofDigits, map_eq_ok_iff]
  constructor
  · rintro ⟨n, hn, rfl⟩
    obtain ⟨hspells, hsize⟩ := foldlM_snoc_eq_ok_iff.1 hn
    rwa [UInt64.toNat_ofNat_of_lt' hsize]
  · intro h
    exact ⟨q.toNat, foldlM_snoc_eq_ok_iff.2 ⟨h, q.toNat_lt⟩, UInt64.ofNat_toNat⟩

lemma ofSigned_of_ne_plus (hc : c ≠ '+') (cs : List Char) :
    ofSigned (c :: cs) = ofDigits (c :: cs) := by
  unfold ofSigned
  split
  · rename_i heq
    cases heq
  · rename_i heq
    exact absurd (List.cons.inj heq).1 hc
  · rename_i heq
    exact absurd (List.cons.inj heq).1 hc
  · rfl

/-- What is behind the sign is read as digits. -/
lemma ofSigned_append {sign : List Char} (hsign : sign = [] ∨ sign = ['+']) (hcs : cs ≠ [])
    (h : Hex.Spells cs n) : ofSigned (sign ++ cs) = ofDigits cs := by
  obtain ⟨c, cs, rfl⟩ := List.exists_cons_of_ne_nil hcs
  rcases hsign with rfl | rfl
  · have hc : c ≠ '+' := by
      rintro rfl
      obtain ⟨d, hd⟩ := h.exists_isDigit_of_mem List.mem_cons_self
      have hplus : Hex.digit? '+' = none := by decide
      rw [← Hex.digit?_eq_some_iff, hplus] at hd
      cases hd
    exact ofSigned_of_ne_plus hc cs
  · rfl

lemma exists_sign_of_ofSigned_eq_ok (h : ofSigned cs = .ok q) :
    ∃ sign ds, cs = sign ++ ds ∧ (sign = [] ∨ sign = ['+']) ∧ ds ≠ [] ∧ Hex.Spells ds q.toNat := by
  rcases cs with _ | ⟨c, cs⟩
  · cases h
  · by_cases hc : c = '+'
    · subst hc
      rcases cs with _ | ⟨d, ds⟩
      · cases h
      · exact ⟨['+'], d :: ds, rfl, .inr rfl, by simp, ofDigits_eq_ok_iff.1 h⟩
    · rw [ofSigned_of_ne_plus hc] at h
      exact ⟨[], c :: cs, rfl, .inl rfl, by simp, ofDigits_eq_ok_iff.1 h⟩

lemma ofText_append (t : String) : ofText ("0x" ++ t) = ofSigned t.toList := by
  simp [ofText]

/-- What spells a number is read as its digits are. -/
lemma Spells.exists_ofText_eq (h : Spells s n) :
    ∃ cs, Hex.Spells cs n ∧ ofText s = ofDigits cs := by
  obtain ⟨sign, digits, rfl, hsign, hdigits, hvalue⟩ := h
  refine ⟨digits.toList, hvalue, ?_⟩
  rw [String.append_assoc, ofText_append, String.toList_append]
  refine ofSigned_append ?_ (by simpa using hdigits) hvalue
  rcases hsign with rfl | rfl
  · exact .inl rfl
  · exact .inr rfl

/-- A text is read as a number exactly if it spells the number. -/
lemma ofText_eq_ok_iff : ofText s = .ok q ↔ Spells s q.toNat := by
  constructor
  · intro h
    have hs : ∃ cs, s = "0x" ++ String.ofList cs ∧ ofSigned cs = .ok q := by
      unfold ofText at h
      split at h
      · rename_i cs heq
        refine ⟨cs, ?_, h⟩
        rw [← String.toList_inj, heq]
        simp
      · cases h
    obtain ⟨cs, rfl, hcs⟩ := hs
    obtain ⟨sign, ds, rfl, hsign, hds, hvalue⟩ := exists_sign_of_ofSigned_eq_ok hcs
    refine ⟨String.ofList sign, String.ofList ds, ?_, ?_, ?_, ?_⟩
    · rw [String.ofList_append, String.append_assoc]
    · rcases hsign with rfl | rfl
      · exact .inl rfl
      · exact .inr rfl
    · simpa using hds
    · simpa using hvalue
  · intro h
    obtain ⟨cs, hcs, hread⟩ := h.exists_ofText_eq
    rw [hread]
    exact ofDigits_eq_ok_iff.2 hcs

lemma ofText_eq_overflow (h : Spells s n) (hn : UInt64.size ≤ n) :
    ofText s = .error .overflow := by
  obtain ⟨cs, hcs, hread⟩ := h.exists_ofText_eq
  rw [hread, ofDigits, foldlM_snoc_eq_overflow hcs hn]
  rfl

/-! ### Writing -/

lemma text_eq (q : UInt64) : text q = "0x" ++ String.ofList (Hex.ofNat q.toNat) := by
  rw [← String.toList_inj]
  simp [text]

lemma exists_digits_text (q : UInt64) : ∃ digits : String,
    text q = "0x" ++ digits ∧ digits ≠ "" ∧ Hex.Spells digits.toList q.toNat := by
  have hdigits : Hex.ofNat q.toNat ≠ [] := Nat.toDigits_ne_nil
  refine ⟨String.ofList (Hex.ofNat q.toNat), text_eq q, by simpa using hdigits, ?_⟩
  rw [String.toList_ofList]
  exact Hex.spells_ofNat q.toNat

lemma spells_text (q : UInt64) : Spells (text q) q.toNat := by
  obtain ⟨digits, htext, hdigits, hvalue⟩ := exists_digits_text q
  exact ⟨"", digits, by rw [htext, String.append_empty], .inl rfl, hdigits, hvalue⟩

/-- A quantity is read from its text. -/
theorem ofText_text (q : UInt64) : ofText (text q) = .ok q := ofText_eq_ok_iff.2 (spells_text q)

lemma length_text (q : UInt64) : (text q).length = 2 + (Hex.ofNat q.toNat).length := by
  rw [text, String.length_ofList, List.length_cons, List.length_cons]
  omega

lemma Spells.length_text_le (h : Spells s q.toNat) : (text q).length ≤ s.length := by
  obtain ⟨sign, digits, rfl, -, hdigits, hvalue⟩ := h
  have hle := hvalue.length_ofNat_le (by simpa using hdigits)
  have hmarker : "0x".length = 2 := rfl
  rw [String.length_toList] at hle
  rw [length_text, String.length_append, String.length_append]
  omega

lemma shortest_text (q : UInt64) : Shortest (text q) q.toNat where
  spelled := exists_digits_text q
  lower := by
    rw [text, String.toList_ofList, List.forall_mem_cons, List.forall_mem_cons]
    exact ⟨by decide, by decide, Hex.toLower_of_mem_ofNat q.toNat⟩
  length_le := fun _ h => h.length_text_le

/-- What is written for a number is its one shortest spelling. -/
theorem shortest_iff : Shortest s q.toNat ↔ s = text q := by
  constructor
  · intro h
    obtain ⟨digits, rfl, hdigits, hvalue⟩ := h.spelled
    have hle := h.length_le _ (spells_text q)
    have hge := hvalue.length_ofNat_le (by simpa using hdigits)
    have hmarker : "0x".length = 2 := rfl
    rw [length_text, String.length_append, ← String.length_toList (s := digits)] at hle
    have hsame : digits.toList = Hex.ofNat q.toNat := by
      refine hvalue.eq_of_length_eq (Hex.spells_ofNat _) (by omega) ?_ (Hex.toLower_of_mem_ofNat _)
      intro c hc
      exact h.lower c (by simp [hc])
    rw [text_eq, ← hsame, String.ofList_toList]
  · rintro rfl
    exact shortest_text q

/-! ### Values that hold quantities -/

/-- The reader takes the texts that spell numbers of 64 bits, and nothing else.  It says what is
wrong with other texts, and of a number that takes more bits that it is too large. -/
structure ReadsGrammar {V ε : Type} (asValue : String → V) (fault : Error → ε)
    (read : V → Except ε UInt64) : Prop where
  accepts : ∀ v q, read v = .ok q ↔ ∃ s, v = asValue s ∧ Spells s q.toNat
  refuses : ∀ s, (∀ q : UInt64, ¬ Spells s q.toNat) → ∃ f, read (asValue s) = .error (fault f)
  overflows : ∀ s n, Spells s n → UInt64.size ≤ n → read (asValue s) = .error (fault .overflow)

/-- Reader and writer agree on the grammar, and what is written for what is read depends on the
number alone. -/
structure KeepsGrammar (read : Json.Reading UInt64) (write : UInt64 → Json) : Prop where
  reads : ReadsGrammar .str .quantity read
  writes : ∀ q j, write q = j ↔ ∃ s, j = .str s ∧ Shortest s q.toNat
  readsBack : ∀ q, read (write q) = .ok q
  normalizes : ∀ q : UInt64, ∃ t, (∀ u, Shortest u q.toNat ↔ u = t) ∧
    ∀ s, Spells s q.toNat → (read (.str s)).map write = .ok (.str t)

/-- A reader of values keeps to the grammar if it reads texts as quantities. -/
lemma readsGrammar_of_ofText {V ε : Type} {asValue : String → V} {fault : Error → ε}
    {read : V → Except ε UInt64} (hread : ∀ s, read (asValue s) = (ofText s).mapError fault)
    (hother : ∀ v q, read v = .ok q → ∃ s, v = asValue s) : ReadsGrammar asValue fault read := by
  have hok (s : String) (q : UInt64) : read (asValue s) = .ok q ↔ Spells s q.toNat := by
    rw [hread, ← ofText_eq_ok_iff]
    cases ofText s <;> simp [Except.mapError]
  refine ⟨?_, ?_, ?_⟩
  · intro v q
    constructor
    · intro h
      obtain ⟨s, rfl⟩ := hother v q h
      exact ⟨s, rfl, (hok s q).1 h⟩
    · rintro ⟨s, rfl, h⟩
      exact (hok s q).2 h
  · intro s hs
    rw [hread]
    rcases h : ofText s with f | q
    · exact ⟨f, rfl⟩
    · exact absurd (ofText_eq_ok_iff.1 h) (hs q)
  · intro s n hs hn
    rw [hread, ofText_eq_overflow hs hn]
    rfl

/-- Quantities are read and written as their grammar says, where they are exchanged and stored, and
are read so from settings as well. -/
theorem codec_keeps_grammar :
    KeepsGrammar Json.readQuantity Json.ofQuantity ∧
      ReadsGrammar .text (fun f => .here (.quantity f)) Settings.readQuantity := by
  have hjson : ReadsGrammar .str .quantity Json.readQuantity := by
    refine readsGrammar_of_ofText (fun _ => rfl) ?_
    intro j q h
    cases j with
    | str s => exact ⟨s, rfl⟩
    | _ => cases h
  have hsettings :
      ReadsGrammar .text (fun f => .here (.quantity f)) Settings.readQuantity := by
    refine readsGrammar_of_ofText (fun _ => rfl) ?_
    intro v q h
    cases v with
    | text s => exact ⟨s, rfl⟩
    | _ => cases h
  refine ⟨⟨hjson, ?_, ?_, ?_⟩, hsettings⟩
  · intro q j
    constructor
    · rintro rfl
      exact ⟨text q, rfl, shortest_text q⟩
    · rintro ⟨s, rfl, hs⟩
      rw [Json.ofQuantity, shortest_iff.1 hs]
  · intro q
    exact (hjson.accepts _ q).2 ⟨text q, rfl, spells_text q⟩
  · intro q
    refine ⟨text q, fun _ => shortest_iff, ?_⟩
    intro s hs
    rw [(hjson.accepts _ q).2 ⟨s, rfl, hs⟩]
    rfl

end Quantity

end ChainHead
