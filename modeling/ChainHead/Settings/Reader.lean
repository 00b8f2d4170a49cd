import ChainHead.Bytes
import ChainHead.Quantity
import ChainHead.Settings.Value

/-!
# Reading settings

A value of the tree of settings is read as what its place demands.  An error names the place by its
path: the keys of tables and the numbers of list elements on the way.

Records are read by a `Form`, from a table or from a list that holds the fields in the order of
their declaration.  In a table the fields are looked at in the order of their names, and the first
fault wins; then missing fields are looked for in the order of their declaration.  Keys that are not
known are passed over, and so are elements of a list behind the last field.
-/

namespace ChainHead.Settings

/-- What is wrong with a setting. -/
inductive Defect where
  /-- A record has no such field. -/
  | missingField (name : String)
  /-- The value is of another type. -/
  | wrongType
  /-- The number is out of range. -/
  | outOfRange
  /-- A quantity is written wrongly. -/
  | quantity (fault : Quantity.Error)
  /-- The text or list is not of the form that its place demands. -/
  | malformed
deriving DecidableEq

/-- The wording of a defect. -/
def Defect.message : Defect → String
  | missingField name => s!"missing field {name}"
  | wrongType => "wrong type"
  | outOfRange => "number out of range"
  | quantity fault => fault.message
  | malformed => "malformed value"

/-- A defect and its place. -/
structure ReadError where
  /-- The path to the value. -/
  path : List String
  /-- What is wrong there. -/
  defect : Defect
deriving DecidableEq

/-- The place with points between its parts. -/
def ReadError.key (e : ReadError) : String := ".".intercalate e.path

/-- A function that reads values of a type. -/
abbrev Reading (α : Type) := Value → Except ReadError α

/-- A defect of the value itself. -/
def ReadError.here (defect : Defect) : ReadError := ⟨[], defect⟩

/-- Reads a value that stands under a key. -/
def under {α : Type} (key : String) (result : Except ReadError α) : Except ReadError α :=
  result.mapError fun e => { e with path := key :: e.path }

/-! ## Plain values -/

/-- Reads a text. -/
def readText : Reading String
  | .text s => .ok s
  | _ => .error (.here .wrongType)

/-- Reads an integer below a limit. -/
def readBelow (limit : Nat) : Reading Nat
  | .number n => if 0 ≤ n ∧ n < limit then .ok n.toNat else .error (.here .outOfRange)
  | _ => .error (.here .wrongType)

/-- Reads a number of 64 bits. -/
def readWord : Reading UInt64 := fun v => (readBelow UInt64.size v).map UInt64.ofNat

/-- Reads the number of a port. -/
def readPort : Reading UInt16 := fun v => (readBelow UInt16.size v).map UInt16.ofNat

/-- Reads a quantity. -/
def readQuantity : Reading UInt64 := fun v => do
  (Quantity.ofText (← readText v)).mapError fun fault => .here (.quantity fault)

/-- Reads a value that may be unset. -/
def readOption {α : Type} (read : Reading α) : Reading (Option α)
  | .unset => .ok none
  | v => (read v).map some

/-- Reads elements, of which the first has the number `i`. -/
def readElements {α : Type} (read : Reading α) (i : Nat) : List Value → Except ReadError (List α)
  | [] => .ok []
  | v :: rest => do
    let a ← under (toString i) (read v)
    let as ← readElements read (i + 1) rest
    return a :: as

/-- Reads a list. -/
def readList {α : Type} (read : Reading α) : Reading (List α)
  | .list elements => readElements read 0 elements
  | _ => .error (.here .wrongType)

/-- The string of `n` bytes, if there are so many. -/
def exactly (n : Nat) (bytes : Option (List UInt8)) : Except ReadError (Bytes n) :=
  match bytes.bind (Bytes.ofList? n) with
  | some b => .ok b
  | none => .error (.here .malformed)

/-- Reads `n` bytes, from their text or from a list of integers. -/
def readBytes (n : Nat) : Reading (Bytes n)
  | .text s => exactly n (Hex.toBytes? (Hex.dropMarker s.toList))
  | .list elements => do
    let bytes ← readElements (readBelow 256) 0 (elements.take n)
    if elements.length ≤ n then exactly n (some (bytes.map UInt8.ofNat))
    else .error (.here .malformed)
  | _ => .error (.here .wrongType)

/-! ## Records -/

/-- A field of a record. -/
structure Field where
  /-- Its name. -/
  name : String
  /-- The fault of a value that the field does not accept. -/
  check : Value → Except ReadError Unit
  /-- Whether a list may end before it. -/
  omittable : Bool

/-- How a record is read. -/
structure Form (α : Type) where
  /-- The fields in the order of their declaration. -/
  fields : List Field
  /-- Puts the record together from the values of its fields. -/
  build : (String → Option Value) → Except ReadError α

namespace Form

instance : Functor Form where
  map f form := ⟨form.fields, fun get => (form.build get).map f⟩

instance : Seq Form where
  seq form next :=
    let next := next ()
    ⟨form.fields ++ next.fields, fun get => do
      let f ← form.build get
      let a ← next.build get
      return f a⟩

/-- A field with what takes its place when it is missing. -/
def field {α : Type} (name : String) (read : Reading α) (missing : Except ReadError α)
    (omittable : Bool) : Form α where
  fields := [⟨name, fun v => (under name (read v)).map fun _ => (), omittable⟩]
  build get :=
    match get name with
    | some v => under name (read v)
    | none => missing

/-- A field that has to be there. -/
def required {α : Type} (name : String) (read : Reading α) : Form α :=
  field name read (.error (.here (.missingField name))) false

/-- A field that is unset when it is missing. -/
def optional {α : Type} (name : String) (read : Reading α) : Form (Option α) :=
  field name (readOption read) (.ok none) false

/-- A field with a value of its own when it is missing. -/
def defaulted {α : Type} (name : String) (value : α) (read : Reading α) : Form α :=
  field name read (.ok value) true

/-- The fields in the order of their names. -/
def byName (form : Form α) : List Field := form.fields.mergeSort fun a b => a.name ≤ b.name

/-- Reads a record. -/
def read {α : Type} (form : Form α) : Reading α
  | .table entries => do
    form.byName.forM fun field =>
      match entries.lookup field.name with
      | some v => field.check v
      | none => .ok ()
    form.build fun name => entries.lookup name
  | .list elements => do
    let given := (form.fields.zip elements).zipIdx
    given.forM fun ((field, v), i) =>
      (field.check v).mapError fun e => { e with path := toString i :: e.path.drop 1 }
    if (form.fields.drop elements.length).all Field.omittable then
      form.build fun name => (given.find? fun ((field, _), _) => field.name = name).map (·.1.2)
    else .error (.here .malformed)
  | _ => .error (.here .wrongType)

end Form

end ChainHead.Settings
