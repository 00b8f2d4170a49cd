import ChainHead.Bytes
import ChainHead.Json.Reader
import ChainHead.Quantity

/-!
# Reading records

A record is read from an object, or from an array that holds its fields in the order of their
declaration.  `Form α` describes how: which fields there are, what each accepts, and how the record
is put together.  Forms are built from single fields with `<$>` and `<*>`.

## Which fault is reported

Fields are looked at in the order of the text, and the first fault wins.  A field given twice is
such a fault; a field that the form does not know is passed over.  Only then are missing fields
looked for, in the order of their declaration.  In the array form the elements are looked at first,
and then their number.
-/

namespace ChainHead.Json

/-- Why a value could not be read. -/
inductive ReadError where
  /-- The text is not JSON. -/
  | malformed
  /-- A required field is missing. -/
  | missingField (name : String)
  /-- A field is given twice. -/
  | duplicateField (name : String)
  /-- A quantity is written wrongly. -/
  | quantity (fault : Quantity.Error)
  /-- The value has another type, length, range or spelling than its place demands. -/
  | invalid
deriving DecidableEq, Repr

/-- A function that reads values of a type. -/
abbrev Reading (α : Type) := Json → Except ReadError α

/-! ## Plain values -/

/-- Reads what `f` makes of the value. -/
def readWith {α : Type} (f : Json → Option α) : Reading α := fun j =>
  match f j with
  | some a => .ok a
  | none => .error .invalid

/-- Reads any value. -/
def readAny : Reading Json := .ok

/-- Reads a string. -/
def readString : Reading String
  | .str s => .ok s
  | _ => .error .invalid

/-- Reads a truth value. -/
def readBool : Reading Bool
  | .bool b => .ok b
  | _ => .error .invalid

/-- Reads an integer of at most 64 bits, without sign. -/
def readWord : Reading UInt64
  | .num n => if 0 ≤ n ∧ n < UInt64.size then .ok (UInt64.ofNat n.toNat) else .error .invalid
  | _ => .error .invalid

/-- Reads a byte given as an integer. -/
def byte? : Json → Option UInt8
  | .num n => if 0 ≤ n ∧ n < 256 then some (UInt8.ofNat n.toNat) else none
  | _ => none

/-- Reads a quantity. -/
def readQuantity : Reading UInt64
  | .str s => (Quantity.ofText s).mapError .quantity
  | _ => .error .invalid

/-- Reads `n` bytes, from their text or from an array of integers. -/
def readBytes (n : Nat) : Reading (Bytes n) := readWith fun
  | .str s => Bytes.ofText? n s
  | .arr elements => (elements.mapM byte?).bind (Bytes.ofList? n)
  | _ => none

/-- Reads a byte string of any length, from its text or from an array of integers. -/
def readByteString : Reading (List UInt8) := readWith fun
  | .str s => Hex.toBytes? (Hex.dropMarker s.toList)
  | .arr elements => elements.mapM byte?
  | _ => none

/-- Reads a list. -/
def readList {α : Type} (read : Reading α) : Reading (List α)
  | .arr elements => elements.mapM read
  | _ => .error .invalid

/-- Reads a value that may be null. -/
def readOption {α : Type} (read : Reading α) : Reading (Option α)
  | .null => .ok none
  | j => (read j).map some

/-- The text of a byte string. -/
def byteStringText (bytes : List UInt8) : String := String.ofList ('0' :: 'x' :: Hex.ofBytes bytes)

/-- The value of a 64-bit number that is written as an integer. -/
def ofWord (n : UInt64) : Json := .num n.toNat

/-- The value of a quantity. -/
def ofQuantity (n : UInt64) : Json := .str (Quantity.text n)

/-- The value of `n` bytes. -/
def ofBytes {n : Nat} (b : Bytes n) : Json := .str b.text

/-! ## Records -/

/-- A field of a record. -/
structure Field where
  /-- Its name in the object form. -/
  name : String
  /-- The fault of a value that the field does not accept. -/
  check : Json → Except ReadError Unit
  /-- Whether the field may be missing at the end of the array form. -/
  omittable : Bool

/-- How a record is read. -/
structure Form (α : Type) where
  /-- The fields in the order of their declaration. -/
  fields : List Field
  /-- Puts the record together from the values of its fields. -/
  build : (String → Option Json) → Except ReadError α

namespace Form

instance : Functor Form where
  map f form := ⟨form.fields, fun get => (form.build get).map f⟩

instance : Seq Form where
  seq form next :=
    let next := next ()
    ⟨form.fields ++ next.fields, fun get => do
      let f ← form.build get
      let a ← next.build get
      return f a⟩

/-- A field that has to be there. -/
def required {α : Type} (name : String) (read : Reading α) : Form α where
  fields := [⟨name, fun j => (read j).map fun _ => (), false⟩]
  build get :=
    match get name with
    | some j => read j
    | none => .error (.missingField name)

/-- A field that is unset when it is missing or null. -/
def optional {α : Type} (name : String) (read : Reading α) : Form (Option α) where
  fields := [⟨name, fun j => (readOption read j).map fun _ => (), false⟩]
  build get :=
    match get name with
    | some j => readOption read j
    | none => .ok none

/-- An optional field that may also be missing at the end of the array form. -/
def trailing {α : Type} (name : String) (read : Reading α) : Form (Option α) where
  fields := [⟨name, fun j => (readOption read j).map fun _ => (), true⟩]
  build get :=
    match get name with
    | some j => readOption read j
    | none => .ok none

/-- A field with a value of its own when it is missing; it may not be null. -/
def defaulted {α : Type} (name : String) (value : α) (read : Reading α) : Form α where
  fields := [⟨name, fun j => (read j).map fun _ => (), true⟩]
  build get :=
    match get name with
    | some j => read j
    | none => .ok value

/-- Looks at fields in the order of the text; `seen` holds the names that came before. -/
def checkFields (fields : List Field) : List String → List (String × Json) → Except ReadError Unit
  | _, [] => .ok ()
  | seen, (name, j) :: rest =>
    match fields.find? (·.name = name) with
    | none => checkFields fields seen rest
    | some field =>
      if name ∈ seen then .error (.duplicateField name)
      else do
        field.check j
        checkFields fields (name :: seen) rest

/-- Reads a record. -/
def read {α : Type} (form : Form α) : Reading α
  | .obj given => do
    checkFields form.fields [] given
    form.build fun name => given.lookup name
  | .arr elements => do
    let given := (form.fields.map Field.name).zip elements
    checkFields form.fields [] given
    if form.fields.length < elements.length then .error .invalid
    else if (form.fields.drop elements.length).all Field.omittable then form.build fun name => given.lookup name
    else .error .invalid
  | _ => .error .invalid

end Form

/-- Reads a value of a type from JSON text. -/
def decode {α : Type} (read : Reading α) (s : String) : Except ReadError α :=
  match ofText? s with
  | some j => read j
  | none => .error .malformed

end ChainHead.Json
