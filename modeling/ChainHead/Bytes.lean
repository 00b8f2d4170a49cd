import ChainHead.Text.Hex

/-!
# Byte strings of a fixed length

`Bytes n` holds exactly `n` bytes.  Block hashes, account addresses and payload identifiers are
byte strings of 32, 20 and 8 bytes.  Their text is `0x` followed by two lower-case digits for each
byte; it may be read in either case and without the marker, but only at the full length.
-/

namespace ChainHead

/-- A string of `n` bytes. -/
@[ext] structure Bytes (n : Nat) where
  /-- The bytes in order. -/
  toList : List UInt8
  /-- There are `n` of them. -/
  length_toList : toList.length = n
deriving DecidableEq

namespace Bytes

variable {n : Nat}

/-- The string of `n` zero bytes. -/
def zero (n : Nat) : Bytes n := ⟨List.replicate n 0, List.length_replicate⟩

instance : Inhabited (Bytes n) := ⟨zero n⟩

/-- The bytes, if there are `n` of them. -/
def ofList? (n : Nat) (bytes : List UInt8) : Option (Bytes n) :=
  if h : bytes.length = n then some ⟨bytes, h⟩ else none

/-- The number with these bytes, the most significant byte first. -/
def toNat (b : Bytes n) : Nat := b.toList.foldl (fun total byte => 256 * total + byte.toNat) 0

/-- The text of the bytes: `0x` and two digits for each. -/
def text (b : Bytes n) : String := String.ofList ('0' :: 'x' :: Hex.ofBytes b.toList)

/-- Reads the text of `n` bytes, in either case and with or without the marker. -/
def ofText? (n : Nat) (s : String) : Option (Bytes n) :=
  (Hex.toBytes? (Hex.dropMarker s.toList)).bind (ofList? n)

instance : ToString (Bytes n) := ⟨text⟩

@[simp] theorem ofList?_toList (b : Bytes n) : ofList? n b.toList = some b := by
  simp [ofList?, b.length_toList]

@[simp] theorem ofText?_text (b : Bytes n) : ofText? n b.text = some b := by
  simp [ofText?, text, Hex.dropMarker, Hex.toBytes?_ofBytes]

end Bytes

/-- The hash of a block, and any other 32-byte word. -/
abbrev Hash := Bytes 32

/-- The address of an account. -/
abbrev Address := Bytes 20

/-- The name of a payload under construction. -/
abbrev PayloadId := Bytes 8

end ChainHead
