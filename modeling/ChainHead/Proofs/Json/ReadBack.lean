import ChainHead.Json.Record
import ChainHead.Proofs.Json.Scanning

/-!
# Values are read back

Reading the text of a value gives the value back (`Json.ofText?_text`), for every value that is not
deeper than is read, whose numbers are integers of at most 308 digits.  Both steps of reading are
followed through the value: its text is cut into its tokens (`Json.scans_tokens`), and its tokens
spell it (`Json.value?_tokens`).
-/

namespace ChainHead.Json

/-! ## The tokens of a text -/

/-- Values in which every number is an integer of at most 308 digits. -/
def Plain : Json → Prop
  | .num n => n.natAbs < 10 ^ 308
  | .real _ => False
  | .arr elements => elementsPlain elements
  | .obj fields => fieldsPlain fields
  | _ => True
where
  /-- All elements are such values. -/
  elementsPlain : List Json → Prop
    | [] => True
    | j :: rest => j.Plain ∧ elementsPlain rest
  /-- The values of all fields are such values. -/
  fieldsPlain : List (String × Json) → Prop
    | [] => True
    | (_, j) :: rest => j.Plain ∧ fieldsPlain rest

open Token (Scans Delimited)

mutual

/-- The text of a value is cut into its tokens, wherever a value can end. -/
theorem scans_tokens : ∀ (j : Json), j.Plain → ∀ {rest : List Char} {after : List Token},
    Delimited rest → Scans rest after →
      Scans (j.tokens.flatMap Token.text ++ rest) (j.tokens ++ after)
  | .null, _, _, _, _, hrest => by simpa [tokens] using hrest.cons (t := .null) trivial
  | .bool b, _, _, _, _, hrest => by simpa [tokens] using hrest.cons (t := .bool b) trivial
  | .num n, hj, _, _, hend, hrest => by
    simpa [tokens] using hrest.cons (t := .num n) ⟨hj, hend⟩
  | .real _, hj, _, _, _, _ => hj.elim
  | .str s, _, _, _, _, hrest => by simpa [tokens] using hrest.cons (t := .str s) trivial
  | .arr elements, hj, _, _, _, hrest => by
    have := (scans_elementTokens elements hj hrest).cons (t := .openArray) trivial
    simpa [tokens, List.append_assoc] using this
  | .obj fields, hj, _, _, _, hrest => by
    have := (scans_fieldTokens fields hj hrest).cons (t := .openObject) trivial
    simpa [tokens, List.append_assoc] using this

theorem scans_elementTokens : ∀ (js : List Json), Plain.elementsPlain js →
    ∀ {rest : List Char} {after : List Token}, Scans rest after →
      Scans ((tokens.elementTokens js).flatMap Token.text ++ rest)
        (tokens.elementTokens js ++ after)
  | [], _, _, _, hrest => by
    simpa [tokens.elementTokens] using hrest.cons (t := .closeArray) trivial
  | [j], hjs, _, _, hrest => by
    have hclose := hrest.cons (t := .closeArray) trivial
    have := scans_tokens j hjs.1 (.closeArray _) hclose
    simpa [tokens.elementTokens, List.append_assoc] using this
  | j :: k :: js, hjs, _, _, hrest => by
    have hmore := (scans_elementTokens (k :: js) hjs.2 hrest).cons (t := .comma) trivial
    have := scans_tokens j hjs.1 (.comma _) hmore
    simpa [tokens.elementTokens, List.append_assoc] using this

theorem scans_fieldTokens : ∀ (fields : List (String × Json)), Plain.fieldsPlain fields →
    ∀ {rest : List Char} {after : List Token}, Scans rest after →
      Scans ((tokens.fieldTokens fields).flatMap Token.text ++ rest)
        (tokens.fieldTokens fields ++ after)
  | [], _, _, _, hrest => by
    simpa [tokens.fieldTokens] using hrest.cons (t := .closeObject) trivial
  | [(name, j)], hfields, _, _, hrest => by
    have hclose := hrest.cons (t := .closeObject) trivial
    have hvalue := scans_tokens j hfields.1 (.closeObject _) hclose
    have := (hvalue.cons (t := .colon) trivial).cons (t := .str name) trivial
    simpa [tokens.fieldTokens, List.append_assoc] using this
  | (name, j) :: field :: fields, hfields, _, _, hrest => by
    have hmore := (scans_fieldTokens (field :: fields) hfields.2 hrest).cons (t := .comma) trivial
    have hvalue := scans_tokens j hfields.1 (.comma _) hmore
    have := (hvalue.cons (t := .colon) trivial).cons (t := .str name) trivial
    simpa [tokens.fieldTokens, List.append_assoc] using this

end

/-! ## The value of the tokens -/

lemma elementTokens_cons_cons (j k : Json) (js : List Json) :
    tokens.elementTokens (j :: k :: js) = j.tokens ++ .comma :: tokens.elementTokens (k :: js) := by
  rw [tokens.elementTokens]
  simp

lemma fieldTokens_cons_cons (name : String) (j : Json) (field : String × Json)
    (fields : List (String × Json)) :
    tokens.fieldTokens ((name, j) :: field :: fields)
      = .str name :: .colon :: (j.tokens ++ .comma :: tokens.fieldTokens (field :: fields)) := by
  rw [tokens.fieldTokens]
  · rfl
  · simp

/-- The fields of an object start with a name. -/
lemma fieldTokens_eq_cons (name : String) (j : Json) (fields : List (String × Json)) :
    ∃ ts, tokens.fieldTokens ((name, j) :: fields) = .str name :: ts := by
  cases fields with
  | nil => exact ⟨_, rfl⟩
  | cons field fields => exact ⟨_, fieldTokens_cons_cons name j field fields⟩

/-- The tokens of a value do not start with the end of an array. -/
lemma tokens_eq_cons (j : Json) : ∃ t ts, j.tokens = t :: ts ∧ t ≠ .closeArray := by
  cases j <;> exact ⟨_, _, rfl, by simp⟩

/-- The elements of an array start with those of its first. -/
lemma elementTokens_eq_cons (j : Json) (js : List Json) :
    ∃ t ts, tokens.elementTokens (j :: js) = t :: ts ∧ t ≠ .closeArray := by
  obtain ⟨t, ts, htokens, ht⟩ := tokens_eq_cons j
  cases js with
  | nil => exact ⟨t, ts ++ [.closeArray], by rw [tokens.elementTokens, htokens]; rfl, ht⟩
  | cons k js =>
    exact ⟨t, ts ++ .comma :: tokens.elementTokens (k :: js),
      by rw [elementTokens_cons_cons, htokens]; rfl, ht⟩

lemma value?_openArray {t : Token} (ht : t ≠ .closeArray) (ts : List Token) (fuel : Nat) :
    value? (fuel + 1) (.openArray :: t :: ts)
      = (elements? fuel (t :: ts)).map fun (js, rest) => (.arr js, rest) := by
  unfold value?
  split <;> simp_all

mutual

/-- The tokens of a value spell it, whatever follows them. -/
theorem value?_tokens : ∀ (j : Json) (fuel : Nat) (rest : List Token),
    2 * j.tokens.length ≤ fuel → value? fuel (j.tokens ++ rest) = some (j, rest)
  | .null, fuel + 1, _, _ => rfl
  | .bool _, fuel + 1, _, _ => rfl
  | .num _, fuel + 1, _, _ => rfl
  | .real _, fuel + 1, _, _ => rfl
  | .str _, fuel + 1, _, _ => rfl
  | .arr [], fuel + 1, _, _ => rfl
  | .obj [], fuel + 1, _, _ => rfl
  | .arr (j :: js), fuel + 1, rest, hfuel => by
    obtain ⟨t, ts, htokens, ht⟩ := elementTokens_eq_cons j js
    have helements := elements?_elementTokens j js fuel rest (by
      simp only [tokens, List.length_cons] at hfuel
      omega)
    rw [tokens, List.cons_append, htokens, List.cons_append, value?_openArray ht,
      ← List.cons_append, ← htokens, helements]
    rfl
  | .obj ((name, j) :: fields), fuel + 1, rest, hfuel => by
    obtain ⟨ts, htokens⟩ := fieldTokens_eq_cons name j fields
    have hfields := fields?_fieldTokens name j fields fuel rest (by
      simp only [tokens, List.length_cons] at hfuel
      omega)
    rw [htokens, List.cons_append] at hfields
    rw [tokens, List.cons_append, htokens, List.cons_append, value?, hfields]
    · rfl
    · simp
  | j, 0, _, hfuel => by
    obtain ⟨t, ts, htokens, -⟩ := tokens_eq_cons j
    rw [htokens, List.length_cons] at hfuel
    omega

theorem elements?_elementTokens : ∀ (j : Json) (js : List Json) (fuel : Nat) (rest : List Token),
    2 * (tokens.elementTokens (j :: js)).length ≤ fuel →
      elements? fuel (tokens.elementTokens (j :: js) ++ rest) = some (j :: js, rest)
  | j, [], fuel + 1, rest, hfuel => by
    simp only [tokens.elementTokens, List.length_append, List.length_singleton] at hfuel
    have hvalue := value?_tokens j fuel (.closeArray :: rest) (by omega)
    simp only [tokens.elementTokens, List.append_assoc, List.singleton_append, elements?, hvalue]
    rfl
  | j, k :: js, fuel + 1, rest, hfuel => by
    simp only [elementTokens_cons_cons, List.length_append, List.length_cons] at hfuel
    have hvalue := value?_tokens j fuel
      (.comma :: (tokens.elementTokens (k :: js) ++ rest)) (by omega)
    have hmore := elements?_elementTokens k js fuel rest (by omega)
    simp only [elementTokens_cons_cons, List.append_assoc, List.cons_append, elements?, hvalue,
      Option.bind_eq_bind, Option.bind_some, hmore]
    rfl
  | j, js, 0, _, hfuel => by
    obtain ⟨t, ts, htokens, -⟩ := elementTokens_eq_cons j js
    rw [htokens, List.length_cons] at hfuel
    omega

theorem fields?_fieldTokens : ∀ (name : String) (j : Json) (fields : List (String × Json))
    (fuel : Nat) (rest : List Token), 2 * (tokens.fieldTokens ((name, j) :: fields)).length ≤ fuel →
      fields? fuel (tokens.fieldTokens ((name, j) :: fields) ++ rest)
        = some ((name, j) :: fields, rest)
  | name, j, [], fuel + 1, rest, hfuel => by
    simp only [tokens.fieldTokens, List.length_append, List.length_cons, List.length_nil] at hfuel
    have hvalue := value?_tokens j fuel (.closeObject :: rest) (by omega)
    simp only [tokens.fieldTokens, List.append_assoc, List.cons_append, List.nil_append, fields?,
      hvalue]
    rfl
  | name, j, (name', k) :: fields, fuel + 1, rest, hfuel => by
    simp only [fieldTokens_cons_cons, List.length_append, List.length_cons] at hfuel
    have hvalue := value?_tokens j fuel
      (.comma :: (tokens.fieldTokens ((name', k) :: fields) ++ rest)) (by omega)
    have hmore := fields?_fieldTokens name' k fields fuel rest (by omega)
    simp only [fieldTokens_cons_cons, List.append_assoc, List.cons_append, fields?, hvalue,
      Option.bind_eq_bind, Option.bind_some, hmore]
    rfl
  | name, j, fields, 0, _, hfuel => by
    obtain ⟨ts, htokens⟩ := fieldTokens_eq_cons name j fields
    rw [htokens, List.length_cons] at hfuel
    omega

end

/-- The text of a value is read as that value. -/
theorem ofText?_text {j : Json} (hplain : j.Plain) (hdepth : j.depth ≤ maxDepth) :
    ofText? j.text = some j := by
  have hscan := (scans_tokens j hplain Delimited.nil Token.Scans.nil).scan?
  have hvalue := value?_tokens j (2 * j.tokens.length + 1) [] (by omega)
  rw [List.append_nil, List.append_nil] at hscan
  rw [List.append_nil] at hvalue
  simp only [ofText?, text, String.toList_ofList, hscan, ofTokens?, hvalue, Option.bind_eq_bind,
    Option.bind_some, List.isEmpty_nil, if_true, Option.pure_def, if_pos hdepth]

end ChainHead.Json
