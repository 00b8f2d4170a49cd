import ChainHead.Block
import ChainHead.Proofs.Json.ReadBack
import ChainHead.Proofs.Quantity

/-!
# Records are read back

A value spells another if it is read as that one and so is its text (`Json.Spells`,
`Json.Spells.decode_text`).  What is written for a quantity or for bytes spells it, and this carries
over to options, lists and records, so that a block survives being stored as text
(`Block.decode_text`), and so does the record of a rejected one (`BadBlock.decode_text`).

A record is written field by field, as its form is put together from fields (`Form.Renders`).  It
is read in two rounds: its fields pass their checks, and the record is built from them.
-/

namespace ChainHead

namespace Json

/-! ## Values -/

variable {α β : Type} {read : Reading α} {n : Nat} {j : Json} {a : α}

/-- The value is read as `a`.  It holds no number but integers of at most 308 digits, and no more
than `n` arrays and objects are open at one place, so that its text can be read as well. -/
structure Spells (n : Nat) (read : Reading α) (j : Json) (a : α) : Prop where
  read_eq : read j = .ok a
  plain : j.Plain
  depth_le : j.depth ≤ n

/-- What is read from a value is read from its text. -/
theorem Spells.decode_text (h : Spells maxDepth read j a) : decode read j.text = .ok a := by
  rw [decode, ofText?_text h.plain h.depth_le]
  exact h.read_eq

lemma spells_string (n : Nat) (s : String) : Spells n readString (.str s) s :=
  ⟨rfl, trivial, Nat.zero_le n⟩

lemma spells_word (n : Nat) (w : UInt64) : Spells n readWord (ofWord w) w := by
  have hsize : w.toNat < UInt64.size := w.toNat_lt
  refine ⟨?_, ?_, Nat.zero_le n⟩
  · rw [ofWord, readWord, if_pos ⟨by omega, by omega⟩, Int.toNat_natCast, UInt64.ofNat_toNat]
  · have hdigits : UInt64.size ≤ 10 ^ 20 := by decide
    have hpow (k : Nat) (hk : 20 ≤ k) : w.toNat < 10 ^ k :=
      Nat.lt_of_lt_of_le hsize (Nat.le_trans hdigits (Nat.pow_le_pow_right (by decide) hk))
    exact hpow 308 (by decide)

lemma spells_byteString (n : Nat) (bytes : List UInt8) :
    Spells n readByteString (.str (byteStringText bytes)) bytes :=
  ⟨by simp only [readByteString, readWith, byteStringText, String.toList_ofList, Hex.dropMarker,
    Hex.toBytes?_ofBytes], trivial, Nat.zero_le n⟩

lemma spells_quantity (n : Nat) (q : UInt64) : Spells n readQuantity (ofQuantity q) q := by
  refine ⟨?_, trivial, Nat.zero_le n⟩
  rw [ofQuantity, readQuantity, Quantity.ofText_text]
  rfl

lemma spells_bytes (n : Nat) {length : Nat} (b : Bytes length) :
    Spells n (readBytes length) (ofBytes b) b :=
  ⟨by simp only [readBytes, readWith, ofBytes, Bytes.ofText?_text], trivial, Nat.zero_le n⟩

/-- An option is read as it was written, unless a value that is set is written as null. -/
lemma spells_option {write : α → Json} (h : ∀ a, Spells n read (write a) a)
    (hnull : ∀ a, write a ≠ .null) (o : Option α) :
    Spells n (readOption read) (ofOption write o) o := by
  cases o with
  | none => exact ⟨rfl, trivial, Nat.zero_le n⟩
  | some a =>
    refine ⟨?_, (h a).plain, (h a).depth_le⟩
    show readOption read (write a) = _
    rw [readOption, (h a).read_eq]
    · rfl
    · exact hnull a

/-! ## Lists -/

lemma elementsPlain_iff (elements : List Json) :
    Plain.elementsPlain elements ↔ ∀ j ∈ elements, j.Plain := by
  induction elements with
  | nil => simp [Plain.elementsPlain]
  | cons j elements ih => rw [Plain.elementsPlain, ih, List.forall_mem_cons]

lemma elementsDepth_le_iff (elements : List Json) :
    depth.elementsDepth elements ≤ n ↔ ∀ j ∈ elements, j.depth ≤ n := by
  induction elements with
  | nil => simp [depth.elementsDepth]
  | cons j elements ih => rw [depth.elementsDepth, Nat.max_le, ih, List.forall_mem_cons]

/-- A list is read from the array of its elements. -/
theorem spells_list {write : α → Json} (h : ∀ a, Spells n read (write a) a) (l : List α) :
    Spells (n + 1) (readList read) (.arr (l.map write)) l where
  read_eq := by
    rw [readList]
    induction l with
    | nil => rfl
    | cons a l ih =>
      rw [List.map_cons, List.mapM_cons, (h a).read_eq]
      show ((l.map write).mapM read >>= fun as => pure (a :: as)) = _
      rw [ih]
      rfl
  plain := (elementsPlain_iff _).2 (List.forall_mem_map.2 fun a _ => (h a).plain)
  depth_le := Nat.succ_le_succ
    ((elementsDepth_le_iff _).2 (List.forall_mem_map.2 fun a _ => (h a).depth_le))

/-! ## Forms -/

lemma fieldsPlain_iff (given : List (String × Json)) :
    Plain.fieldsPlain given ↔ ∀ p ∈ given, p.2.Plain := by
  induction given with
  | nil => simp [Plain.fieldsPlain]
  | cons p given ih => rw [Plain.fieldsPlain, ih, List.forall_mem_cons]

lemma fieldsDepth_le_iff (given : List (String × Json)) :
    depth.fieldsDepth given ≤ n ↔ ∀ p ∈ given, p.2.depth ≤ n := by
  induction given with
  | nil => simp [depth.fieldsDepth]
  | cons p given ih => rw [depth.fieldsDepth, Nat.max_le, ih, List.forall_mem_cons]

namespace Form

/-- The names of the fields. -/
def names (form : Form α) : List String := form.fields.map Field.name

/-- Looking at the given fields, a reader of the form takes each as it is meant, and puts `a`
together from them.  As long as no name stands twice in a form, this can be said of its parts. -/
structure Renders (n : Nat) (form : Form α) (given : List (String × Json)) (a : α) : Prop where
  sublist : (given.map Prod.fst).Sublist form.names
  plain : ∀ p ∈ given, p.2.Plain
  depth_le : ∀ p ∈ given, p.2.depth ≤ n
  check : form.names.Nodup → ∀ p ∈ given, ∀ field ∈ form.fields, field.name = p.1 →
    field.check p.2 = .ok ()
  build : form.names.Nodup → ∀ get : String → Option Json,
    (∀ name ∈ form.names, get name = given.lookup name) → form.build get = .ok a

/-! ### Single fields -/

namespace Renders

/-- A field that is given holds the value of which the record is built. -/
lemma single {form : Form α} (field : Field) (hfields : form.fields = [field])
    (hplain : j.Plain) (hdepth : j.depth ≤ n) (hcheck : field.check j = .ok ())
    (hbuild : ∀ get : String → Option Json, get field.name = some j → form.build get = .ok a) :
    Renders n form [(field.name, j)] a where
  sublist := by
    rw [names, hfields]
    exact .refl _
  plain := by simpa using hplain
  depth_le := by simpa using hdepth
  check _ := by simpa [hfields] using hcheck
  build _ get hget := hbuild get (by simpa [names, hfields] using hget)

lemma required (name : String) (h : Spells n read j a) :
    Renders n (.required name read) [(name, j)] a :=
  single ⟨name, _, _⟩ rfl h.plain h.depth_le (congrArg (Except.map _) h.read_eq)
    fun get hget => by
      have hget : get name = some j := hget
      simp only [Form.required, hget, h.read_eq]

lemma optional {o : Option α} (name : String) (h : Spells n (readOption read) j o) :
    Renders n (.optional name read) [(name, j)] o :=
  single ⟨name, _, _⟩ rfl h.plain h.depth_le (congrArg (Except.map _) h.read_eq)
    fun get hget => by
      have hget : get name = some j := hget
      simp only [Form.optional, hget, h.read_eq]

/-- Under a name of its own an option is read whether it is null or left out. -/
lemma trailing {write : α → Json} (name : String) (h : ∀ a, Spells n read (write a) a)
    (hnull : ∀ a, write a ≠ .null) (o : Option α) :
    Renders n (.trailing name read) (fieldIfSet name write o) o := by
  cases o with
  | none =>
    refine ⟨List.nil_sublist _, nofun, nofun, nofun, fun _ get hget => ?_⟩
    have hget : get name = none := hget name (List.mem_singleton_self name)
    simp only [Form.trailing, hget]
  | some a =>
    have hoption := spells_option h hnull (some a)
    exact single ⟨name, _, _⟩ rfl hoption.plain hoption.depth_le
      (congrArg (Except.map _) hoption.read_eq) fun get hget => by
        have hget : get name = some (ofOption write (some a)) := hget
        simp only [Form.trailing, hget, hoption.read_eq]

lemma defaulted (name : String) (value : α) (h : Spells n read j a) :
    Renders n (.defaulted name value read) [(name, j)] a :=
  single ⟨name, _, _⟩ rfl h.plain h.depth_le (congrArg (Except.map _) h.read_eq)
    fun get hget => by
      have hget : get name = some j := hget
      simp only [Form.defaulted, hget, h.read_eq]

/-! ### Records -/

lemma map {form : Form α} {given : List (String × Json)} (f : α → β) (h : Renders n form given a) :
    Renders n (f <$> form) given (f a) where
  sublist := h.sublist
  plain := h.plain
  depth_le := h.depth_le
  check := h.check
  build hnodup get hget := by
    show (form.build get).map f = _
    rw [h.build hnodup get hget]
    rfl

/-- The fields of the next part are not looked for among those before them, nor these among those. -/
lemma seq {form : Form (α → β)} {next : Form α} {given more : List (String × Json)} {f : α → β}
    (hf : Renders n form given f) (ha : Renders n next more a) :
    Renders n (form <*> next) (given ++ more) (f a) := by
  have hnames : (form <*> next).names = form.names ++ next.names := List.map_append
  refine ⟨?_, ?_, ?_, ?_, ?_⟩
  · rw [hnames, List.map_append]
    exact hf.sublist.append ha.sublist
  · exact List.forall_mem_append.2 ⟨hf.plain, ha.plain⟩
  · exact List.forall_mem_append.2 ⟨hf.depth_le, ha.depth_le⟩
  · intro hnodup p hp field hfield hname
    rw [hnames, List.nodup_append] at hnodup
    obtain ⟨hform, hnext, hdisjoint⟩ := hnodup
    have hgiven (hp : p ∈ given) : p.1 ∈ form.names :=
      hf.sublist.subset (List.mem_map_of_mem hp)
    have hmore (hp : p ∈ more) : p.1 ∈ next.names := ha.sublist.subset (List.mem_map_of_mem hp)
    obtain hp | hp := List.mem_append.1 hp <;> obtain hfield | hfield := List.mem_append.1 hfield
    · exact hf.check hform p hp field hfield hname
    · exact absurd hname.symm (hdisjoint _ (hgiven hp) _ (List.mem_map_of_mem hfield))
    · exact absurd hname (hdisjoint _ (List.mem_map_of_mem hfield) _ (hmore hp))
    · exact ha.check hnext p hp field hfield hname
  · intro hnodup get hget
    rw [hnames, List.nodup_append] at hnodup
    obtain ⟨hform, hnext, hdisjoint⟩ := hnodup
    have hbuild := hf.build hform get fun name hname => by
      have hnot : more.lookup name = none := List.lookup_eq_none_iff.2 fun p hp => by
        have hne := hdisjoint name hname p.1 (ha.sublist.subset (List.mem_map_of_mem hp))
        simpa using hne
      rw [hget name (hnames ▸ List.mem_append_left _ hname), List.lookup_append, hnot,
        Option.or_none]
    have hbuild' := ha.build hnext get fun name hname => by
      have hnot : given.lookup name = none := List.lookup_eq_none_iff.2 fun p hp => by
        have hne := hdisjoint p.1 (hf.sublist.subset (List.mem_map_of_mem hp)) name hname
        simpa using hne.symm
      rw [hget name (hnames ▸ List.mem_append_right _ hname), List.lookup_append, hnot,
        Option.none_or]
    show (form.build get >>= fun f => next.build get >>= fun a => pure (f a)) = _
    rw [hbuild]
    show (next.build get >>= fun a => pure (f a)) = _
    rw [hbuild']
    rfl

end Renders

/-- Fields of different names pass if each passes the check of its name. -/
lemma checkFields_of_forall (fields : List Field) {given : List (String × Json)}
    (seen : List String) (hnames : (given.map Prod.fst).Nodup)
    (hseen : ∀ p ∈ given, p.1 ∉ seen)
    (hcheck : ∀ p ∈ given, ∀ field, fields.find? (·.name = p.1) = some field →
      field.check p.2 = .ok ()) :
    checkFields fields seen given = .ok () := by
  induction given generalizing seen with
  | nil => rfl
  | cons p given ih =>
    obtain ⟨name, j⟩ := p
    rw [List.map_cons, List.nodup_cons] at hnames
    have hrest : ∀ seen', (∀ q ∈ given, q.1 ∉ seen') → checkFields fields seen' given = .ok () :=
      fun seen' hseen' => ih seen' hnames.2 hseen' fun q hq => hcheck q (List.mem_cons_of_mem _ hq)
    have hseen' : ∀ q ∈ given, q.1 ∉ seen := fun q hq => hseen q (List.mem_cons_of_mem _ hq)
    rw [checkFields]
    cases hfind : fields.find? (·.name = name) with
    | none => exact hrest seen hseen'
    | some field =>
      have hnot : name ∉ seen := hseen (name, j) List.mem_cons_self
      have hfield := hcheck (name, j) List.mem_cons_self field hfind
      simp only at hfield
      simp only [if_neg hnot, hfield]
      refine hrest _ fun q hq hmem => ?_
      rcases List.mem_cons.1 hmem with rfl | hmem
      · exact hnames.1 (List.mem_map.2 ⟨q, hq, rfl⟩)
      · exact hseen' q hq hmem

/-- A record is read from the object of its fields. -/
theorem Renders.record {form : Form α} {given : List (String × Json)}
    (h : Renders n form given a) (hnodup : form.names.Nodup) :
    Spells (n + 1) form.read (.obj given) a where
  read_eq := by
    have hcheck := checkFields_of_forall form.fields [] (hnodup.sublist h.sublist) (by simp)
      fun p hp field hfind => h.check hnodup p hp field (List.mem_of_find?_eq_some hfind)
        (by simpa using List.find?_some hfind)
    rw [read, hcheck]
    exact h.build hnodup _ fun _ _ => rfl
  plain := (fieldsPlain_iff given).2 h.plain
  depth_le := Nat.succ_le_succ ((fieldsDepth_le_iff given).2 h.depth_le)

end Form

end Json

/-! ## Blocks -/

open Json (Spells spells_bytes spells_option spells_quantity spells_string)
open Json.Form.Renders (record required optional)

lemma Block.spells (n : Nat) (b : Block) : Spells (n + 1) Block.form.read b.toJson b :=
  record (.seq (.seq (.seq (.map _
    (required "hash" (spells_bytes n b.hash)))
    (required "number" (spells_quantity n b.number)))
    (required "parentHash" (spells_bytes n b.parentHash)))
    (required "timestamp" (spells_quantity n b.timestamp))) (by decide)

/-- A block is read from its text. -/
theorem Block.decode_text (b : Block) : Json.decode Block.form.read b.toJson.text = .ok b :=
  (b.spells _).decode_text

/-! ## Records of rejected blocks -/

lemma BadBlock.spells (n : Nat) (b : BadBlock) : Spells (n + 1) BadBlock.form.read b.toJson b :=
  record (.seq (.seq (.map _
    (required "hash" (spells_bytes n b.hash)))
    (optional "latestValidAncestor"
      (spells_option (spells_bytes n) (fun _ => nofun) b.latestValidAncestor)))
    (required "reason" (spells_string n b.reason))) (by decide)

/-- The record of a rejected block is read from its text. -/
theorem BadBlock.decode_text (b : BadBlock) :
    Json.decode BadBlock.form.read b.toJson.text = .ok b :=
  (b.spells _).decode_text

end ChainHead
