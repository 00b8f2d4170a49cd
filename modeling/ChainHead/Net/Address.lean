import ChainHead.Text.Hex

/-!
# Network addresses

An address of version 4 has four bytes, written in decimal with points between them.  One of version
6 has eight groups of sixteen bits, written in hexadecimal with colons between them.  Once in such a
text two colons may stand for at least one group of zero, and the last two groups may be written
like an address of version 4.

In writing, the longest run of at least two groups of zero gives way to two colons, the first one of
several.  An address that stands for one of version 4 ends like it.
-/

namespace ChainHead.Net

/-- An address of a host. -/
inductive Address where
  /-- An address of version 4. -/
  | v4 (a b c d : UInt8)
  /-- An address of version 6. -/
  | v6 (a b c d e f g h : UInt16)
deriving DecidableEq

namespace Address

/-! ## Reading -/

/-- The texts between separators. -/
def split (separator : Char) : List Char → List (List Char)
  | [] => [[]]
  | c :: rest =>
    if c = separator then [] :: split separator rest
    else
      match split separator rest with
      | [] => [[c]]
      | part :: more => (c :: part) :: more

/-- The byte that up to three decimal digits spell; a leading zero stands alone. -/
def byte? (cs : List Char) : Option UInt8 :=
  let n := Nat.ofDigitChars 10 cs 0
  if cs = [] ∨ 3 < cs.length ∨ ! cs.all Char.isDigit then none
  else if cs.head? = some '0' ∧ cs ≠ ['0'] then none
  else if n < 256 then some (UInt8.ofNat n) else none

/-- The four bytes of an address of version 4. -/
def bytes? (cs : List Char) : Option (UInt8 × UInt8 × UInt8 × UInt8) := do
  match split '.' cs with
  | [a, b, c, d] => return (← byte? a, ← byte? b, ← byte? c, ← byte? d)
  | _ => none

/-- The group that up to four hexadecimal digits spell. -/
def group? (cs : List Char) : Option UInt16 := do
  if cs = [] ∨ 4 < cs.length then none
  let digits ← cs.mapM Hex.digit?
  return UInt16.ofNat (digits.foldl (fun total d => 16 * total + d) 0)

/-- The group of two bytes. -/
def pair (a b : UInt8) : UInt16 := a.toUInt16 <<< 8 ||| b.toUInt16

/-- The groups that texts spell, of which the last may be an address of version 4 if that is
`allowed`. -/
def groups? (allowed : Bool) : List (List Char) → Option (List UInt16)
  | [] => some []
  | [last] =>
    match group? last, bytes? last with
    | some g, _ => some [g]
    | none, some (a, b, c, d) => if allowed then some [pair a b, pair c d] else none
    | none, none => none
  | part :: rest => do return (← group? part) :: (← groups? allowed rest)

/-- The address with these groups, if there are eight. -/
def ofGroups? : List UInt16 → Option Address
  | [a, b, c, d, e, f, g, h] => some (v6 a b c d e f g h)
  | _ => none

/-- What stands before two colons and after them, if there are any. -/
def cut? : List Char → Option (List Char × List Char)
  | ':' :: ':' :: rest => some ([], rest)
  | c :: rest => (cut? rest).map fun (before, after) => (c :: before, after)
  | [] => none

/-- The texts of groups, of which there are none in an empty text. -/
def parts (cs : List Char) : List (List Char) := if cs = [] then [] else split ':' cs

/-- Reads an address of version 6. -/
def groupsOfText? (cs : List Char) : Option (List UInt16) :=
  match cut? cs with
  | none => groups? true (parts cs)
  | some (before, after) => do
    let front ← groups? false (parts before)
    let back ← groups? true (parts after)
    if front.length + back.length ≤ 7 then
      return front ++ List.replicate (8 - front.length - back.length) 0 ++ back
    else none

/-- Reads an address. -/
def ofText? (s : String) : Option Address :=
  match bytes? s.toList with
  | some (a, b, c, d) => some (v4 a b c d)
  | none => (groupsOfText? s.toList).bind ofGroups?

/-! ## Writing -/

/-- The text of an address of version 4. -/
def bytesText (a b c d : UInt8) : String :=
  ".".intercalate ([a, b, c, d].map fun n => toString n.toNat)

/-- The groups of an address of version 6. -/
def groupsText (groups : List UInt16) : String :=
  ":".intercalate (groups.map fun g => String.ofList (Hex.ofNat g.toNat))

/-- The number of zeros at the start of a list. -/
def zeros (groups : List UInt16) : Nat := (groups.takeWhile (· = 0)).length

/-- The place and the length of the first of the longest runs of zeros. -/
def longestRun (groups : List UInt16) : Nat × Nat :=
  (List.range groups.length).foldl
    (fun best i => if best.2 < zeros (groups.drop i) then (i, zeros (groups.drop i)) else best) (0, 0)

/-- The groups with their longest run of zeros shortened. -/
def shortened (groups : List UInt16) : String :=
  let (start, length) := longestRun groups
  if length < 2 then groupsText groups
  else groupsText (groups.take start) ++ "::" ++ groupsText (groups.drop (start + length))

/-- The text of an address. -/
def text : Address → String
  | v4 a b c d => bytesText a b c d
  | v6 a b c d e f g h =>
    if [a, b, c, d, e, f] = [0, 0, 0, 0, 0, 0xFFFF] then
      "::ffff:" ++ bytesText (g >>> 8).toUInt8 g.toUInt8 (h >>> 8).toUInt8 h.toUInt8
    else shortened [a, b, c, d, e, f, g, h]

/-- The text of an address and a port. -/
def textWithPort (address : Address) (port : UInt16) : String :=
  match address with
  | v4 .. => address.text ++ ":" ++ toString port.toNat
  | v6 .. => "[" ++ address.text ++ "]:" ++ toString port.toNat

end Address

end ChainHead.Net
