import ChainHead.Json.Basic
import ChainHead.Text.Hex

/-!
# The tokens of JSON text

A text is first cut into tokens and then read as a value, so that either step can be stated on
its own.  `Token.scan?` cuts a text, `Token.text` writes one token.

Strings are written with the short escapes where there is one, with `\u00XX` for the other control
characters, and plainly otherwise.  In a text every escape of the standard is read; an escape of a
surrogate counts only as half of a pair.  A number whose magnitude lies beyond the largest binary64
number is no token.
-/

namespace ChainHead.Json

/-- A token of JSON text. -/
inductive Token where
  /-- The word `null`. -/
  | null
  /-- One of the words `true` and `false`. -/
  | bool (b : Bool)
  /-- A number written as an integer, except `-0`. -/
  | num (n : Int)
  /-- Any other number. -/
  | real (literal : String)
  /-- A string. -/
  | str (s : String)
  /-- The sign that opens an array. -/
  | openArray
  /-- The sign that closes an array. -/
  | closeArray
  /-- The sign that opens an object. -/
  | openObject
  /-- The sign that closes an object. -/
  | closeObject
  /-- The sign between two elements or fields. -/
  | comma
  /-- The sign between a name and its value. -/
  | colon
deriving DecidableEq, Repr

namespace Token

/-! ## Writing -/

/-- A character as it stands inside a string. -/
def escape (c : Char) : List Char :=
  if c = '"' then ['\\', '"']
  else if c = '\\' then ['\\', '\\']
  else if c = '\n' then ['\\', 'n']
  else if c = '\r' then ['\\', 'r']
  else if c = '\t' then ['\\', 't']
  else if c = '\x08' then ['\\', 'b']
  else if c = '\x0c' then ['\\', 'f']
  else if c.toNat < 32 then '\\' :: 'u' :: '0' :: '0' :: Hex.ofByte (UInt8.ofNat c.toNat)
  else [c]

/-- The text of an integer. -/
def numberText (n : Int) : List Char :=
  if n < 0 then '-' :: Nat.toDigits 10 n.natAbs else Nat.toDigits 10 n.natAbs

/-- The text of a token. -/
def text : Token → List Char
  | null => ['n', 'u', 'l', 'l']
  | bool true => ['t', 'r', 'u', 'e']
  | bool false => ['f', 'a', 'l', 's', 'e']
  | num n => numberText n
  | real literal => literal.toList
  | str s => '"' :: s.toList.flatMap escape ++ ['"']
  | openArray => ['[']
  | closeArray => [']']
  | openObject => ['\x7b']
  | closeObject => ['\x7d']
  | comma => [',']
  | colon => [':']

/-! ## Strings -/

/-- The number written by four hexadecimal digits at the start of the text. -/
def unit? : List Char → Option (Nat × List Char)
  | a :: b :: c :: d :: rest => do
    let a ← Hex.digit? a
    let b ← Hex.digit? b
    let c ← Hex.digit? c
    let d ← Hex.digit? d
    return (((a * 16 + b) * 16 + c) * 16 + d, rest)
  | _ => none

/-- The character of an escape by number.  A unit that opens a surrogate pair must be followed by
one that closes it, and none that closes a pair may stand alone. -/
def escapedUnit? (cs : List Char) : Option (Char × List Char) := do
  let (high, rest) ← unit? cs
  if 0xD800 ≤ high ∧ high < 0xDC00 then
    match rest with
    | '\\' :: 'u' :: rest =>
      let (low, rest) ← unit? rest
      if 0xDC00 ≤ low ∧ low < 0xE000 then
        return (Char.ofNat (0x10000 + (high - 0xD800) * 0x400 + (low - 0xDC00)), rest)
      else none
    | _ => none
  else if 0xDC00 ≤ high ∧ high < 0xE000 then none
  else return (Char.ofNat high, rest)

/-- The character of an escape, from what follows the backslash. -/
def escaped? : List Char → Option (Char × List Char)
  | '"' :: rest => some ('"', rest)
  | '\\' :: rest => some ('\\', rest)
  | '/' :: rest => some ('/', rest)
  | 'b' :: rest => some ('\x08', rest)
  | 'f' :: rest => some ('\x0c', rest)
  | 'n' :: rest => some ('\n', rest)
  | 'r' :: rest => some ('\r', rest)
  | 't' :: rest => some ('\t', rest)
  | 'u' :: rest => escapedUnit? rest
  | _ => none

/-- The characters of a string up to its closing quote, and what follows it.  Each round takes at
least one character, so the length of the text is enough fuel. -/
def string? : Nat → List Char → Option (List Char × List Char)
  | 0, _ => none
  | _ + 1, [] => none
  | fuel + 1, c :: rest =>
    if c = '"' then some ([], rest)
    else if c = '\\' then do
      let (c, rest) ← escaped? rest
      let (cs, rest) ← string? fuel rest
      return (c :: cs, rest)
    else if c.toNat < 32 then none
    else do
      let (cs, rest) ← string? fuel rest
      return (c :: cs, rest)

/-! ## Numbers -/

/-- The number written by decimal digits. -/
def decimal (digits : List Char) : Nat := Nat.ofDigitChars 10 digits 0

/-- Whether `significand · 10 ^ exponent` rounds to a finite binary64 number. -/
def isFinite (significand : Nat) (exponent : Int) : Bool :=
  let size := (Nat.toDigits 10 significand).length + exponent
  significand == 0 || size ≤ 308 ||
    (size ≤ 309 &&
      significand * Nat.pow 10 exponent.toNat <
        (Nat.pow 2 1024 - Nat.pow 2 970) * Nat.pow 10 (-exponent).toNat)

/-- The digits at the start of a text, if there are any, and what follows them. -/
def digits? (cs : List Char) : Option (List Char × List Char) :=
  if cs.takeWhile Char.isDigit = [] then none
  else some (cs.takeWhile Char.isDigit, cs.dropWhile Char.isDigit)

/-- The digits after a point, none where no point follows. -/
def fraction? : List Char → Option (List Char × List Char)
  | '.' :: rest => digits? rest
  | cs => some ([], cs)

/-- The exponent, unset where none follows. -/
def exponent? (cs : List Char) : Option (Option Int × List Char) :=
  match cs with
  | c :: rest =>
    if c = 'e' ∨ c = 'E' then
      match rest with
      | '-' :: rest => (digits? rest).map fun (ds, rest) => (some (-(decimal ds : Int)), rest)
      | '+' :: rest => (digits? rest).map fun (ds, rest) => (some (decimal ds : Int), rest)
      | rest => (digits? rest).map fun (ds, rest) => (some (decimal ds : Int), rest)
    else some (none, cs)
  | [] => some (none, [])

/-- A number without its sign: a leading zero stands alone. -/
def unsigned? (negative : Bool) (cs : List Char) : Option (Token × List Char) := do
  let (whole, rest) ← digits? cs
  if whole.head? = some '0' ∧ whole ≠ ['0'] then none
  let (fraction, rest) ← fraction? rest
  let (exponent, rest) ← exponent? rest
  if ! isFinite (decimal (whole ++ fraction)) (exponent.getD 0 - fraction.length) then none
  let value : Int := decimal whole
  if fraction = [] ∧ exponent = none ∧ ¬ (negative ∧ value = 0) then
    return (num (if negative then -value else value), rest)
  else
    let literal := cs.take (cs.length - rest.length)
    return (real (String.ofList (if negative then '-' :: literal else literal)), rest)

/-- A number. -/
def number? : List Char → Option (Token × List Char)
  | '-' :: rest => unsigned? true rest
  | cs => unsigned? false cs

/-! ## Cutting a text -/

/-- The token that starts with the character `c`, and what follows it. -/
def starting? (c : Char) (rest : List Char) : Option (Token × List Char) :=
  if c = '"' then
    (string? (rest.length + 1) rest).map fun (cs, rest) => (str (String.ofList cs), rest)
  else if c = '[' then some (openArray, rest)
  else if c = ']' then some (closeArray, rest)
  else if c = '\x7b' then some (openObject, rest)
  else if c = '\x7d' then some (closeObject, rest)
  else if c = ',' then some (comma, rest)
  else if c = ':' then some (colon, rest)
  else if c = 'n' then (List.isPrefixOf? ['u', 'l', 'l'] rest).map fun rest => (null, rest)
  else if c = 't' then (List.isPrefixOf? ['r', 'u', 'e'] rest).map fun rest => (bool true, rest)
  else if c = 'f' then (List.isPrefixOf? ['a', 'l', 's', 'e'] rest).map fun rest => (bool false, rest)
  else number? (c :: rest)

/-- Whether a character may stand between tokens. -/
def isBlank (c : Char) : Bool := c = ' ' || c = '\n' || c = '\t' || c = '\r'

/-- The tokens of a text.  Each round takes at least one character. -/
def scanFrom? : Nat → List Char → Option (List Token)
  | 0, _ => none
  | _ + 1, [] => some []
  | fuel + 1, c :: rest =>
    if isBlank c then scanFrom? fuel rest
    else do
      let (token, rest) ← starting? c rest
      let tokens ← scanFrom? fuel rest
      return token :: tokens

/-- The tokens of a text, if it consists of tokens and blanks. -/
def scan? (cs : List Char) : Option (List Token) := scanFrom? (cs.length + 1) cs

end Token

end ChainHead.Json
