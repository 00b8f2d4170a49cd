import ChainHead.Settings.Value
import ChainHead.Text.Hex

/-!
# Numbers, truth values and dates of TOML

Whatever is neither a text nor a list or a table is one word.  An integer has decimal digits, or
digits of base 16, 8 or 2 behind a marker, with single underscores between digits where that is
wanted, and it fits into 64 bits with a sign.  Other numbers and dates are recognised, but what they
say is of no use to any setting: a number is kept as it is written, and a date as an empty table.
-/

namespace ChainHead.Settings.Toml

/-- Whether a character may stand in a word. -/
def isWordChar (c : Char) : Bool :=
  c.isAlphanum || c = '_' || c = '+' || c = '-' || c = '.' || c = ':'

/-! ## Numbers -/

/-- Digits without the underscores between them; an underscore needs a digit on either side. -/
def joined? (isDigit : Char → Bool) : List Char → Option (List Char)
  | [] => none
  | [c] => if isDigit c then some [c] else none
  | c :: '_' :: rest => if isDigit c then (joined? isDigit rest).map (c :: ·) else none
  | c :: rest => if isDigit c then (joined? isDigit rest).map (c :: ·) else none

/-- Whether a character is a digit of a base. -/
def isDigitOf (base : Nat) (c : Char) : Bool :=
  match Hex.digit? c with
  | some d => d < base
  | none => false

/-- The number that digits of a base spell. -/
def natural? (base : Nat) (cs : List Char) : Option Nat := do
  let digits ← (← joined? (isDigitOf base) cs).mapM Hex.digit?
  return digits.foldl (fun total d => base * total + d) 0

/-- Decimal digits, of which the first is no zero unless it stands alone. -/
def decimal? (cs : List Char) : Option Nat :=
  match cs with
  | '0' :: _ :: _ => none
  | cs => natural? 10 cs

/-- Whether a word is an exponent with its letter, or nothing. -/
def isExponent : List Char → Bool
  | [] => true
  | c :: rest =>
    (c = 'e' || c = 'E') &&
      match rest with
      | '+' :: rest => (natural? 10 rest).isSome
      | '-' :: rest => (natural? 10 rest).isSome
      | rest => (natural? 10 rest).isSome

/-- Whether a word without a sign is a number that is not written as an integer. -/
def isReal (cs : List Char) : Bool :=
  let isDigit (c : Char) : Bool := c.isDigit || c = '_'
  let (whole, rest) := (cs.takeWhile isDigit, cs.dropWhile isDigit)
  cs = ['i', 'n', 'f'] || cs = ['n', 'a', 'n'] ||
    ((decimal? whole).isSome &&
      match rest with
      | '.' :: rest =>
        (natural? 10 (rest.takeWhile isDigit)).isSome && isExponent (rest.dropWhile isDigit)
      | [] => false
      | rest => isExponent rest)

/-- A number that has a sign. -/
def signed? (word : List Char) (negative : Bool) (cs : List Char) : Option Value :=
  match decimal? cs with
  | some n =>
    if n < Value.signLimit ∨ negative ∧ n = Value.signLimit then some (.number (if negative then -n else n)) else none
  | none => if isReal cs then some (.real (String.ofList word)) else none

/-- The number that digits of a base spell, if it fits into 64 bits with a sign. -/
def based? (base : Nat) (cs : List Char) : Option Value :=
  (natural? base cs).bind fun n => if n < Value.signLimit then some (.number n) else none

/-- A number. -/
def number? (word : List Char) : Option Value :=
  match word with
  | '0' :: 'x' :: cs => based? 16 cs
  | '0' :: 'o' :: cs => based? 8 cs
  | '0' :: 'b' :: cs => based? 2 cs
  | '+' :: cs => signed? word false cs
  | '-' :: cs => signed? word true cs
  | cs => signed? word false cs

/-! ## Dates -/

/-- The number that two digits at the start of a text spell, if it is at most `limit`, and what
follows them. -/
def twoDigits? (limit : Nat) : List Char → Option (Nat × List Char)
  | a :: b :: rest =>
    if a.isDigit ∧ b.isDigit ∧ Nat.ofDigitChars 10 [a, b] 0 ≤ limit then
      some (Nat.ofDigitChars 10 [a, b] 0, rest)
    else none
  | _ => none

/-- The number of days of a month. -/
def daysOf (year month : Nat) : Nat :=
  if month = 2 then if year % 4 = 0 ∧ (year % 100 ≠ 0 ∨ year % 400 = 0) then 29 else 28
  else if month ∈ [4, 6, 9, 11] then 30
  else 31

/-- What follows a date. -/
def date? (cs : List Char) : Option (List Char) := do
  let (century, cs) ← twoDigits? 99 cs
  let (year, cs) ← twoDigits? 99 cs
  let '-' :: cs := cs | none
  let (month, cs) ← twoDigits? 12 cs
  let '-' :: cs := cs | none
  let (day, cs) ← twoDigits? (daysOf (100 * century + year) month) cs
  if 0 < month ∧ 0 < day then return cs else none

/-- What follows a time of the day. -/
def time? (cs : List Char) : Option (List Char) := do
  let (_, cs) ← twoDigits? 23 cs
  let ':' :: cs := cs | none
  let (_, cs) ← twoDigits? 59 cs
  let ':' :: cs := cs | none
  let (_, cs) ← twoDigits? 60 cs
  match cs with
  | '.' :: rest => if rest.takeWhile Char.isDigit = [] then none else return rest.dropWhile Char.isDigit
  | cs => return cs

/-- Whether a text is the offset of a time, or nothing. -/
def isOffset : List Char → Bool
  | [] => true
  | ['Z'] => true
  | ['z'] => true
  | sign :: cs =>
    (sign = '+' || sign = '-') &&
      match twoDigits? 23 cs with
      | some (_, ':' :: cs) => (twoDigits? 59 cs).map Prod.snd = some []
      | _ => false

/-- Whether a text is a date, a time of the day, or both. -/
def isMoment (cs : List Char) : Bool :=
  match date? cs with
  | some [] => true
  | some (separator :: cs) =>
    (separator = 'T' || separator = 't' || separator = ' ') &&
      match time? cs with
      | some rest => isOffset rest
      | none => false
  | none => time? cs = some []

/-! ## Words -/

/-- The word at the start of a text, and what follows it.  A date may be followed by a blank and the
time of the day. -/
def word (cs : List Char) : List Char × List Char :=
  let first := cs.takeWhile isWordChar
  match date? first, cs.dropWhile isWordChar with
  | some [], ' ' :: d :: rest =>
    if d.isDigit then
      (first ++ ' ' :: (d :: rest).takeWhile isWordChar, (d :: rest).dropWhile isWordChar)
    else (first, ' ' :: d :: rest)
  | _, rest => (first, rest)

/-- The value that a word stands for. -/
def scalar? (cs : List Char) : Option Value :=
  if cs = ['t', 'r', 'u', 'e'] then some (.truth true)
  else if cs = ['f', 'a', 'l', 's', 'e'] then some (.truth false)
  else if isMoment cs then some (.table [])
  else number? cs

end ChainHead.Settings.Toml
