/-!
# Hexadecimal text

Numbers and byte strings in base sixteen.  Digits are written in lower case and read in either
case.  A byte takes two digits, so only an even number of digits is a byte string, while a number
is written with as few digits as it needs.

* `Hex.digit?` reads a digit, `Hex.ofNat` writes a number, `Hex.ofBytes` writes bytes.
* `Hex.toBytes?` reads bytes; `Hex.toBytes?_ofBytes` says that it undoes `Hex.ofBytes`.
-/

namespace ChainHead.Hex

/-- The value of a hexadecimal digit of either case. -/
def digit? (c : Char) : Option Nat :=
  if '0' ≤ c ∧ c ≤ '9' then some (c.toNat - '0'.toNat)
  else if 'a' ≤ c ∧ c ≤ 'f' then some (c.toNat - 'a'.toNat + 10)
  else if 'A' ≤ c ∧ c ≤ 'F' then some (c.toNat - 'A'.toNat + 10)
  else none

/-- The shortest digits of a number; zero takes one digit. -/
def ofNat (n : Nat) : List Char := Nat.toDigits 16 n

/-- The two digits of a byte, the more significant one first. -/
def ofByte (b : UInt8) : List Char :=
  [Nat.digitChar (b.toNat / 16), Nat.digitChar (b.toNat % 16)]

/-- The digits of a byte string, two for each byte. -/
def ofBytes (bytes : List UInt8) : List Char := bytes.flatMap ofByte

/-- The byte string written by an even number of digits. -/
def toBytes? : List Char → Option (List UInt8)
  | [] => some []
  | [_] => none
  | high :: low :: rest => do
    let h ← digit? high
    let l ← digit? low
    let bytes ← toBytes? rest
    return UInt8.ofNat (16 * h + l) :: bytes

/-- The text without the marker `0x` or `0X`, if it starts with one. -/
def dropMarker : List Char → List Char
  | '0' :: 'x' :: rest => rest
  | '0' :: 'X' :: rest => rest
  | cs => cs

/-! ## Reading back -/

theorem digit?_digitChar : ∀ d : Fin 16, digit? (Nat.digitChar d) = some d.val := by decide

theorem toBytes?_ofBytes (bytes : List UInt8) : toBytes? (ofBytes bytes) = some bytes := by
  induction bytes with
  | nil => rfl
  | cons b bytes ih =>
    have hb : b.toNat < 256 := b.toNat_lt
    have high := digit?_digitChar ⟨b.toNat / 16, by omega⟩
    have low := digit?_digitChar ⟨b.toNat % 16, by omega⟩
    have join : UInt8.ofNat (16 * (b.toNat / 16) + b.toNat % 16) = b := by
      rw [Nat.div_add_mod]
      exact UInt8.ofNat_toNat
    have split : ofBytes (b :: bytes)
        = Nat.digitChar (b.toNat / 16) :: Nat.digitChar (b.toNat % 16) :: ofBytes bytes := rfl
    simp only at high low
    rw [split]
    simp only [toBytes?, high, low, ih, Option.bind_eq_bind, Option.bind_some, join]
    rfl

end ChainHead.Hex
