import Mathlib.Algebra.Group.Nat.Defs
import Mathlib.Tactic.Common
import ChainHead.Json.Token

/-!
# Tokens are read back

A token that is written in front of a text is the first token that the text is cut into.  A number
is the one token that could run into what follows it, so it has to stand before a text that starts
with the end of a value (`Token.Delimited`).

The statement on whole texts is `Token.Scans`: the text is cut into these tokens, whatever the fuel
beyond its length.  It is built up from the end of a text, one token at a time
(`Token.Scans.cons`).
-/

namespace ChainHead.Json.Token

/-! ## Strings -/

/-- The digits of a control character stand for it. -/
lemma escapedUnit?_control {c : Char} (hc : c.toNat < 32) (rest : List Char) :
    escapedUnit? ('0' :: '0' :: Hex.ofByte (UInt8.ofNat c.toNat) ++ rest) = some (c, rest) := by
  have hbyte : (UInt8.ofNat c.toNat).toNat = c.toNat :=
    UInt8.toNat_ofNat_of_lt' (Nat.lt_trans hc (by decide))
  have hzero : Hex.digit? '0' = some 0 := by decide
  have hhigh := Hex.digit?_digitChar ⟨c.toNat / 16, by omega⟩
  have hlow := Hex.digit?_digitChar ⟨c.toNat % 16, by omega⟩
  have hvalue : ((0 * 16 + 0) * 16 + c.toNat / 16) * 16 + c.toNat % 16 = c.toNat := by omega
  simp only at hhigh hlow
  have hunit : unit? ('0' :: '0' :: Hex.ofByte (UInt8.ofNat c.toNat) ++ rest)
      = some (c.toNat, rest) := by
    simp only [Hex.ofByte, hbyte, List.cons_append, List.nil_append, unit?, hzero, hhigh, hlow,
      Option.bind_eq_bind, Option.bind_some, hvalue]
    rfl
  have hlow' : ¬ (0xD800 ≤ c.toNat ∧ c.toNat < 0xDC00) := by omega
  have hhigh' : ¬ (0xDC00 ≤ c.toNat ∧ c.toNat < 0xE000) := by omega
  simp only [escapedUnit?, hunit, Option.bind_eq_bind, Option.bind_some, hlow', hhigh', if_false,
    Char.ofNat_toNat]
  rfl

/-- A written character is read back as one round of reading a string. -/
lemma string?_escape (c : Char) (rest : List Char) (fuel : Nat) :
    string? (fuel + 1) (escape c ++ rest)
      = (string? fuel rest).map fun (cs, rest) => (c :: cs, rest) := by
  have escaped {e : List Char} (he : escaped? (e ++ rest) = some (c, rest)) :
      string? (fuel + 1) ('\\' :: e ++ rest)
        = (string? fuel rest).map fun (cs, rest) => (c :: cs, rest) := by
    have hquote : ¬ '\\' = '"' := by decide
    simp only [List.cons_append, string?, if_neg hquote, if_true, he, Option.bind_eq_bind,
      Option.bind_some]
    cases string? fuel rest <;> rfl
  unfold escape
  split_ifs with h1 h2 h3 h4 h5 h6 h7 h8
  · subst h1; exact escaped (e := ['"']) rfl
  · subst h2; exact escaped (e := ['\\']) rfl
  · subst h3; exact escaped (e := ['n']) rfl
  · subst h4; exact escaped (e := ['r']) rfl
  · subst h5; exact escaped (e := ['t']) rfl
  · subst h6; exact escaped (e := ['b']) rfl
  · subst h7; exact escaped (e := ['f']) rfl
  · exact escaped (escapedUnit?_control h8 rest)
  · simp only [List.cons_append, List.nil_append, string?, if_neg h1, if_neg h2, if_neg h8,
      Option.bind_eq_bind]
    cases string? fuel rest <;> rfl

lemma string?_flatMap_escape (cs rest : List Char) (fuel : Nat) (hfuel : cs.length < fuel) :
    string? fuel (cs.flatMap escape ++ '"' :: rest) = some (cs, rest) := by
  induction cs generalizing fuel with
  | nil =>
    obtain ⟨fuel, rfl⟩ := Nat.exists_eq_succ_of_ne_zero (Nat.ne_of_gt hfuel)
    simp [string?]
  | cons c cs ih =>
    obtain ⟨fuel, rfl⟩ := Nat.exists_eq_succ_of_ne_zero (Nat.ne_of_gt (Nat.zero_lt_of_lt hfuel))
    have hrest := ih fuel (Nat.lt_of_succ_lt_succ hfuel)
    rw [List.flatMap_cons, List.append_assoc, Nat.succ_eq_add_one, string?_escape, hrest]
    rfl

lemma length_le_flatMap_escape (cs : List Char) : cs.length ≤ (cs.flatMap escape).length := by
  induction cs with
  | nil => exact Nat.le_refl 0
  | cons c cs ih =>
    have hc : 1 ≤ (escape c).length := by
      unfold escape
      split_ifs <;> simp
    rw [List.flatMap_cons, List.length_append, List.length_cons]
    omega

/-! ## Numbers -/

/-- The text does not go on with what could belong to a value. -/
def Delimited : List Char → Prop
  | [] => True
  | c :: _ => c = ',' ∨ c = ']' ∨ c = '\x7d'

lemma Delimited.nil : Delimited [] := trivial

lemma Delimited.comma (rest : List Char) : Delimited (Token.comma.text ++ rest) := .inl rfl

lemma Delimited.closeArray (rest : List Char) : Delimited (Token.closeArray.text ++ rest) :=
  .inr (.inl rfl)

lemma Delimited.closeObject (rest : List Char) : Delimited (Token.closeObject.text ++ rest) :=
  .inr (.inr rfl)

/-- What follows a number does not start with a character that could belong to it. -/
lemma Delimited.not_mem_number {c : Char} {rest : List Char} (h : Delimited (c :: rest)) :
    c.isDigit = false ∧ c ≠ '.' ∧ c ≠ 'e' ∧ c ≠ 'E' := by
  rcases h with rfl | rfl | rfl <;> decide

lemma digits?_toDigits (n : Nat) {rest : List Char} (hrest : Delimited rest) :
    digits? (Nat.toDigits 10 n ++ rest) = some (Nat.toDigits 10 n, rest) := by
  have hdigits : ∀ c ∈ Nat.toDigits 10 n, c.isDigit = true := fun c hc =>
    Nat.isDigit_of_mem_toDigits (by decide) (by decide) hc
  have htake : rest.takeWhile Char.isDigit = [] := by
    cases rest with
    | nil => rfl
    | cons c rest => simp [hrest.not_mem_number.1]
  have hdrop : rest.dropWhile Char.isDigit = rest := by
    cases rest with
    | nil => rfl
    | cons c rest => simp [hrest.not_mem_number.1]
  rw [digits?, List.takeWhile_append_of_pos hdigits, List.dropWhile_append_of_pos hdigits, htake,
    hdrop, List.append_nil, if_neg Nat.toDigits_ne_nil]

/-- A number is written without leading zeros. -/
lemma eq_zero_of_head?_toDigits {n : Nat} (h : (Nat.toDigits 10 n).head? = some '0') : n = 0 := by
  induction n using Nat.strongRecOn with
  | _ n ih =>
    by_cases hn : n < 10
    · rw [Nat.toDigits_of_lt_base hn] at h
      have hchar : Nat.digitChar n = '0' := by simpa using h
      have : ∀ d : Fin 10, Nat.digitChar d = '0' → d.val = 0 := by decide
      exact this ⟨n, hn⟩ hchar
    · rw [Nat.toDigits_of_base_le (by decide) (Nat.le_of_not_lt hn)] at h
      obtain ⟨d, ds, hdigits⟩ := List.exists_cons_of_ne_nil (Nat.toDigits_ne_nil (n := n / 10))
      rw [hdigits, List.cons_append, List.head?_cons] at h
      have := ih (n / 10) (by omega) (by rw [hdigits, List.head?_cons, h])
      omega

lemma fraction?_of_delimited {rest : List Char} (hrest : Delimited rest) :
    fraction? rest = some ([], rest) := by
  cases rest with
  | nil => rfl
  | cons c rest =>
    have hc := hrest.not_mem_number.2.1
    unfold fraction?
    split
    · rename_i heq
      exact absurd (List.cons.inj heq).1 hc
    · rfl

lemma exponent?_of_delimited {rest : List Char} (hrest : Delimited rest) :
    exponent? rest = some (none, rest) := by
  cases rest with
  | nil => rfl
  | cons c rest =>
    obtain ⟨-, -, hc, hc'⟩ := hrest.not_mem_number
    simp [exponent?, hc, hc']

lemma length_toDigits_le {n k : Nat} (hk : 0 < k) (hn : n < 10 ^ k) :
    (Nat.toDigits 10 n).length ≤ k :=
  (Nat.length_toDigits_le_iff (by decide) hk).2 hn

/-- A whole number of at most 308 digits is no overflow of a binary64 number. -/
lemma isFinite_of_lt {n : Nat} (hn : n < 10 ^ 308) : isFinite n 0 = true := by
  have hlength := length_toDigits_le (by decide) hn
  have hsize : ((Nat.toDigits 10 n).length : Int) + 0 ≤ 308 := by omega
  simp only [isFinite, decide_eq_true hsize, Bool.or_true, Bool.true_or]

lemma unsigned?_toDigits {n : Nat} (hn : n < 10 ^ 308) (negative : Bool)
    (hsign : ¬ (negative = true ∧ n = 0)) {rest : List Char} (hrest : Delimited rest) :
    unsigned? negative (Nat.toDigits 10 n ++ rest)
      = some (num (if negative then -n else n), rest) := by
  have hvalue : decimal (Nat.toDigits 10 n) = n := Nat.ofDigitChars_ten_toDigits
  have hzero : ¬ ((Nat.toDigits 10 n).head? = some '0' ∧ Nat.toDigits 10 n ≠ ['0']) := by
    rintro ⟨hhead, hne⟩
    rw [eq_zero_of_head?_toDigits hhead] at hne
    exact hne rfl
  have hsign' : ¬ (negative = true ∧ (n : Int) = 0) := fun h =>
    hsign ⟨h.1, Int.ofNat_eq_zero.1 h.2⟩
  have hfinite : isFinite (decimal (Nat.toDigits 10 n ++ []))
      ((none : Option Int).getD 0 - ([] : List Char).length) = true := by
    rw [List.append_nil, hvalue]
    exact isFinite_of_lt hn
  simp only [unsigned?, digits?_toDigits n hrest, fraction?_of_delimited hrest,
    exponent?_of_delimited hrest, Option.bind_eq_bind, Option.bind_some, if_neg hzero, hfinite,
    hvalue, hsign', Bool.not_true, Bool.false_eq_true, if_false, not_false_eq_true, and_self,
    if_true]
  rfl

/-- A number that is written is the number that is read. -/
lemma number?_numberText {n : Int} (hn : n.natAbs < 10 ^ 308) {rest : List Char}
    (hrest : Delimited rest) : number? (numberText n ++ rest) = some (num n, rest) := by
  unfold numberText
  split_ifs with hneg
  · have hsign : ¬ (true = true ∧ n.natAbs = 0) := by omega
    have hvalue : -(n.natAbs : Int) = n := by omega
    have := unsigned?_toDigits hn true hsign hrest
    rw [if_pos rfl, hvalue] at this
    simpa only [List.cons_append, number?] using this
  · have hvalue : (n.natAbs : Int) = n := by omega
    have := unsigned?_toDigits hn false (by simp) hrest
    rw [if_neg (by decide), hvalue] at this
    have hhead : ∀ rest', Nat.toDigits 10 n.natAbs ++ rest ≠ '-' :: rest' := by
      intro rest' heq
      cases hdigits : Nat.toDigits 10 n.natAbs with
      | nil => exact Nat.toDigits_ne_nil hdigits
      | cons d ds =>
        have hd : d.isDigit = true :=
          Nat.isDigit_of_mem_toDigits (by decide) (by decide) (hdigits ▸ List.mem_cons_self)
        rw [hdigits, List.cons_append] at heq
        rw [(List.cons.inj heq).1] at hd
        exact absurd hd (by decide)
    unfold number?
    split
    · rename_i heq
      exact absurd heq (hhead _)
    · exact this

/-! ## Single tokens -/

/-- What it takes to read a token back that is written in front of a text.  A number may have at
most 308 digits; any other number is kept as its literal, about which nothing is said. -/
def Separate : Token → List Char → Prop
  | num n, rest => n.natAbs < 10 ^ 308 ∧ Delimited rest
  | real _, _ => False
  | _, _ => True

/-- A character with which a number starts. -/
lemma starting?_number {c : Char} (hc : c = '-' ∨ c.isDigit = true) (rest : List Char) :
    starting? c rest = number? (c :: rest) := by
  have hne : ∀ d : Char, d ≠ '-' → d.isDigit = false → c ≠ d := by
    rintro d hminus hdigit rfl
    rcases hc with hc | hc
    · exact hminus hc
    · rw [hc] at hdigit
      cases hdigit
  simp [starting?, hne '"' (by decide) (by decide), hne '[' (by decide) (by decide),
    hne ']' (by decide) (by decide), hne '\x7b' (by decide) (by decide),
    hne '\x7d' (by decide) (by decide), hne ',' (by decide) (by decide),
    hne ':' (by decide) (by decide), hne 'n' (by decide) (by decide),
    hne 't' (by decide) (by decide), hne 'f' (by decide) (by decide)]

/-- The text of a number starts with its sign or a digit. -/
lemma numberText_eq_cons (n : Int) :
    ∃ c cs, numberText n = c :: cs ∧ (c = '-' ∨ c.isDigit = true) := by
  unfold numberText
  split_ifs
  · exact ⟨_, _, rfl, .inl rfl⟩
  · obtain ⟨d, ds, hdigits⟩ := List.exists_cons_of_ne_nil
      (Nat.toDigits_ne_nil (n := n.natAbs) (b := 10))
    refine ⟨d, ds, hdigits, .inr ?_⟩
    exact Nat.isDigit_of_mem_toDigits (b := 10) (n := n.natAbs) (by decide) (by decide)
      (hdigits ▸ List.mem_cons_self)

/-- A token that is written is the first token of the text. -/
lemma starting?_text {t : Token} {rest : List Char} (ht : t.Separate rest) :
    ∃ c cs, t.text = c :: cs ∧ isBlank c = false ∧ starting? c (cs ++ rest) = some (t, rest) := by
  cases t with
  | null => exact ⟨_, _, rfl, rfl, rfl⟩
  | bool b => cases b <;> exact ⟨_, _, rfl, rfl, rfl⟩
  | num n =>
    obtain ⟨c, cs, htext, hc⟩ := numberText_eq_cons n
    have hblank : isBlank c = false := by
      rcases hc with rfl | hc
      · rfl
      · by_contra hblank
        simp only [isBlank, Bool.not_eq_false, Bool.or_eq_true, decide_eq_true_eq] at hblank
        rcases hblank with ((rfl | rfl) | rfl) | rfl <;> exact absurd hc (by decide)
    refine ⟨c, cs, htext, hblank, ?_⟩
    rw [starting?_number hc, ← List.cons_append, ← htext, number?_numberText ht.1 ht.2]
  | real literal => exact ht.elim
  | str s =>
    refine ⟨'"', s.toList.flatMap escape ++ ['"'], rfl, rfl, ?_⟩
    have hlength := length_le_flatMap_escape s.toList
    have hstring := string?_flatMap_escape s.toList rest
      ((s.toList.flatMap escape ++ '"' :: rest).length + 1)
      (by rw [List.length_append]; omega)
    rw [starting?, if_pos rfl, List.append_assoc, List.cons_append, List.nil_append, hstring]
    simp only [Option.map_some, String.ofList_toList]
  | openArray => exact ⟨_, _, rfl, rfl, rfl⟩
  | closeArray => exact ⟨_, _, rfl, rfl, rfl⟩
  | openObject => exact ⟨_, _, rfl, rfl, rfl⟩
  | closeObject => exact ⟨_, _, rfl, rfl, rfl⟩
  | comma => exact ⟨_, _, rfl, rfl, rfl⟩
  | colon => exact ⟨_, _, rfl, rfl, rfl⟩

/-! ## Whole texts -/

/-- The text is cut into these tokens. -/
def Scans (cs : List Char) (tokens : List Token) : Prop :=
  ∀ fuel, cs.length < fuel → scanFrom? fuel cs = some tokens

lemma Scans.nil : Scans [] [] := by
  intro fuel hfuel
  obtain ⟨fuel, rfl⟩ := Nat.exists_eq_succ_of_ne_zero (Nat.ne_of_gt hfuel)
  rfl

lemma Scans.cons {t : Token} {tokens : List Token} {rest : List Char} (ht : t.Separate rest)
    (hrest : Scans rest tokens) : Scans (t.text ++ rest) (t :: tokens) := by
  obtain ⟨c, cs, htext, hblank, hstart⟩ := starting?_text ht
  intro fuel hfuel
  rw [htext, List.cons_append] at hfuel ⊢
  obtain ⟨fuel, rfl⟩ := Nat.exists_eq_succ_of_ne_zero (Nat.ne_of_gt (Nat.zero_lt_of_lt hfuel))
  have hfuel' : rest.length < fuel := by
    rw [List.length_cons, List.length_append] at hfuel
    omega
  rw [Nat.succ_eq_add_one, scanFrom?, hblank, if_neg (by decide), hstart]
  simp only [Option.bind_eq_bind, Option.bind_some, hrest fuel hfuel']
  rfl

lemma Scans.scan? {cs : List Char} {tokens : List Token} (h : Scans cs tokens) :
    Token.scan? cs = some tokens :=
  h _ (Nat.lt_succ_self _)

end ChainHead.Json.Token
