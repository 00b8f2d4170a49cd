import ChainHead.Text.Hex

/-!
# Quantities

A quantity is a 64-bit number written as `0x` and its shortest lower-case hexadecimal digits.  It
is read from `0x`, an optional `+` and one or more digits of either case, with any number of
leading zeros, as long as the value fits.

`Quantity.Error` says why a text is no quantity.  Digits are read from the left, so of two faults
the one further left is reported.
-/

namespace ChainHead.Quantity

/-- Why a text is not a quantity. -/
inductive Error where
  /-- The text does not begin with `0x`. -/
  | unmarked (text : String)
  /-- Nothing follows the marker. -/
  | empty
  /-- A character is not a digit, or a sign stands alone. -/
  | invalidDigit
  /-- The value does not fit into 64 bits. -/
  | overflow
deriving DecidableEq, Repr

/-- The wording of the fault. -/
def Error.message : Error → String
  | .unmarked text => s!"quantity missing 0x prefix: {text}"
  | .empty => "cannot parse integer from empty string"
  | .invalidDigit => "invalid digit found in string"
  | .overflow => "number too large to fit in target type"

/-- Appends a digit to a value that is already read. -/
def snoc (value : Nat) (c : Char) : Except Error Nat :=
  match Hex.digit? c with
  | none => .error .invalidDigit
  | some d => if 16 * value + d < UInt64.size then .ok (16 * value + d) else .error .overflow

/-- The value of a run of digits that fits into 64 bits. -/
def ofDigits (cs : List Char) : Except Error UInt64 :=
  (cs.foldlM snoc 0).map UInt64.ofNat

/-- The value of an optionally signed run of digits. -/
def ofSigned : List Char → Except Error UInt64
  | [] => .error .empty
  | ['+'] => .error .invalidDigit
  | '+' :: digits => ofDigits digits
  | digits => ofDigits digits

/-- Reads a quantity. -/
def ofText (s : String) : Except Error UInt64 :=
  match s.toList with
  | '0' :: 'x' :: rest => ofSigned rest
  | _ => .error (.unmarked s)

/-- The text of a quantity. -/
def text (n : UInt64) : String := String.ofList ('0' :: 'x' :: Hex.ofNat n.toNat)

example : text 255 = "0xff" := by decide

example : (ofText "0x+00FF").toOption = some 255 := by decide

end ChainHead.Quantity
