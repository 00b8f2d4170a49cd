import ChainHead.Settings.Value
import ChainHead.Text.Blank
import ChainHead.Text.Escape

/-!
# Settings in the environment

A variable whose name starts with `TILLER_`, in any case of letters, sets what the rest of its name
says; two underscores lead into a table.  Later variables are merged over earlier ones.

The text of a variable is read as a truth value, a number, a text between quotes, a list between
brackets or a table between braces.  Any other text, and one of which only a part can be read in
this way, stands for itself.
-/

namespace ChainHead.Settings.Environment

/-! ## Texts of values -/

/-- Whether a character may stand around a value. -/
def isSpace (c : Char) : Bool := c = ' ' || c = '\t' || c = '\n'

/-- Whether a character ends a plain value. -/
def isSeparator (c : Char) : Bool := c = ',' || c = '[' || c = ']' || c = '\x7b' || c = '\x7d'

/-- Whether a character may stand in a key. -/
def isKeyChar (c : Char) : Bool := c.isAlphanum || c = '_' || c = '-'

/-- A text without its sign. -/
def dropSign : List Char → List Char
  | '+' :: rest => rest
  | '-' :: rest => rest
  | cs => cs

/-- Whether a text is an exponent, or nothing. -/
def isExponent : List Char → Bool
  | [] => true
  | c :: rest =>
    (c = 'e' || c = 'E') && dropSign rest ≠ [] && (dropSign rest).all Char.isDigit

/-- Whether a text is a number with a point. -/
def isReal (cs : List Char) : Bool :=
  let cs := dropSign cs
  let whole := cs.takeWhile Char.isDigit
  match cs.dropWhile Char.isDigit with
  | '.' :: rest =>
    (whole ≠ [] || rest.takeWhile Char.isDigit ≠ []) && isExponent (rest.dropWhile Char.isDigit)
  | _ => false

/-- The number that digits spell, if there are any. -/
def digits? (cs : List Char) : Option Nat :=
  if cs ≠ [] ∧ cs.all Char.isDigit then some (Nat.ofDigitChars 10 cs 0) else none

/-- The integer that a text spells, if it fits into 64 bits with or without sign. -/
def integer? : List Char → Option Int
  | '-' :: rest => (digits? rest).bind fun n => if n ≤ Value.signLimit then some (-(n : Int)) else none
  | '+' :: rest => (digits? rest).bind fun n => if n < UInt64.size then some (n : Int) else none
  | cs => (digits? cs).bind fun n => if n < UInt64.size then some (n : Int) else none

/-- What a plain text stands for. -/
def plain (cs : List Char) : Value :=
  if isReal cs then .real (String.ofList cs)
  else
    match integer? cs with
    | some n => .number n
    | none => .text (String.ofList cs)

/-- The characters of a text up to its closing quote, and what follows.  Each step takes at least
one character. -/
def quoted? : Nat → List Char → Option (List Char × List Char)
  | 0, _ => none
  | _ + 1, [] => none
  | fuel + 1, c :: rest =>
    if c = '"' then some ([], rest)
    else do
      let (c, rest) ← if c = '\\' then Text.escaped? rest
        else if Text.isOrdinary c then some (c, rest) else none
      let (cs, rest) ← quoted? fuel rest
      return (c :: cs, rest)

/-- A text without the spaces at its start. -/
def skipSpace (cs : List Char) : List Char := cs.dropWhile isSpace

/-- A key and the equals sign behind it, and what follows. -/
def key? (cs : List Char) : Option (String × List Char) := do
  let cs := skipSpace cs
  let (key, rest) ← match cs with
    | '"' :: rest => quoted? (rest.length + 1) rest
    | cs =>
      if cs.takeWhile isKeyChar = [] then none
      else some (cs.takeWhile isKeyChar, cs.dropWhile isKeyChar)
  match skipSpace rest with
  | '=' :: rest => return (String.ofList key, rest)
  | _ => none

mutual

/-- The value at the start of a text, and what follows it and the spaces behind it.  Each call is
made for a shorter text or hands its text on once. -/
def value? : Nat → List Char → Option (Value × List Char)
  | 0, _ => none
  | fuel + 1, cs => do
    let (v, rest) ← match skipSpace cs with
      | 't' :: 'r' :: 'u' :: 'e' :: rest => some (.truth true, rest)
      | 'f' :: 'a' :: 'l' :: 's' :: 'e' :: rest => some (.truth false, rest)
      | '[' :: rest => (elements? fuel rest).map fun (vs, rest) => (.list vs, rest)
      | '\x7b' :: rest => (entries? fuel rest []).map fun (es, rest) => (.table es, rest)
      | '"' :: rest =>
        (quoted? (rest.length + 1) rest).map fun (s, rest) => (.text (String.ofList s), rest)
      | '\'' :: rest =>
        match rest with
        | c :: '\'' :: rest => some (.text (String.ofList [c]), rest)
        | _ => none
      | cs => some (plain (Text.trim (cs.takeWhile (! isSeparator ·))), cs.dropWhile (! isSeparator ·))
    return (v, skipSpace rest)

/-- The elements of a list up to its end, and what follows. -/
def elements? : Nat → List Char → Option (List Value × List Char)
  | 0, _ => none
  | _ + 1, ']' :: rest => some ([], rest)
  | fuel + 1, cs => do
    let (v, rest) ← value? fuel cs
    match rest with
    | ',' :: rest =>
      let (vs, rest) ← elements? fuel rest
      return (v :: vs, rest)
    | ']' :: rest => return ([v], rest)
    | _ => none

/-- The entries of a table up to its end on top of others, and what follows. -/
def entries? : Nat → List Char → List (String × Value) → Option (List (String × Value) × List Char)
  | 0, _, _ => none
  | _ + 1, '\x7d' :: rest, entries => some (entries, rest)
  | fuel + 1, cs, entries => do
    let (key, rest) ← key? cs
    let (v, rest) ← value? fuel rest
    let entries := Value.put key v entries
    match rest with
    | ',' :: rest => entries? fuel rest entries
    | '\x7d' :: rest => return (entries, rest)
    | _ => none

end

/-- The value of a variable. -/
def value (s : String) : Value :=
  match value? (2 * s.length + 2) s.toList with
  | some (v, []) => v
  | _ => .text s

/-! ## Names of variables -/

/-- What the names of variables start with. -/
def nameStart : String := "tiller_"

/-- A name of the variable that sets what a path of keys leads to. -/
def nameOf (path : List String) : String := nameStart.toUpper ++ ("__".intercalate path).toUpper

/-- The parts of a text between points, where a double underscore is as good as a point. -/
def parts : List Char → List (List Char)
  | [] => [[]]
  | '_' :: '_' :: rest => [] :: parts rest
  | '.' :: rest => [] :: parts rest
  | c :: rest =>
    match parts rest with
    | [] => [[c]]
    | part :: more => (c :: part) :: more

/-- The path of keys that a variable sets, if it sets any. -/
def path? (name : String) : Option (List String) := do
  let name := (Text.trim name.toList).map Char.toLower
  let rest ← List.isPrefixOf? nameStart.toList name
  let keys := parts rest
  if [] ∈ keys then none else return keys.map String.ofList

/-- The settings of one variable. -/
def layer? (name value : String) : Option Value :=
  (path? name).map (Environment.value value).nest

/-- The settings of all variables. -/
def layer (environment : List (String × String)) : Value :=
  (environment.filterMap fun (name, value) => layer? name value).foldl Value.merge (.table [])

end ChainHead.Settings.Environment
