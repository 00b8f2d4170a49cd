import ChainHead.Text.Escape

/-!
# Texts and keys of TOML

A text stands between double quotes, where escapes are read, or between single quotes, where there
are none.  Tripled quotes let it run over several lines; a line break right after the opening quotes
is dropped, and every other one is kept as a line feed.  Each function takes what stands behind the
opening quotes, and gives the text and what follows the closing ones.

A key is bare, or it is a text on one line.
-/

namespace ChainHead.Settings.Toml

/-- A text without the blanks at its start. -/
def skipBlanks (cs : List Char) : List Char := cs.dropWhile fun c => c = ' ' || c = '\t'

/-- What follows a line break. -/
def lineBreak? : List Char → Option (List Char)
  | '\n' :: rest => some rest
  | '\r' :: '\n' :: rest => some rest
  | _ => none

/-- What follows a comment, or the text as it is where there is none. -/
def skipComment : List Char → List Char
  | '#' :: rest => rest.dropWhile Text.isOrdinary
  | cs => cs

/-- What follows the end of a line: blanks, a comment, and a line break unless the text ends. -/
def lineEnd? (cs : List Char) : Option (List Char) :=
  match skipComment (skipBlanks cs) with
  | [] => some []
  | cs => lineBreak? cs

/-- A text behind a double quote.  Each step takes at least one character. -/
def basic? : Nat → List Char → Option (List Char × List Char)
  | 0, _ => none
  | _ + 1, [] => none
  | fuel + 1, c :: rest =>
    if c = '"' then some ([], rest)
    else do
      let (c, rest) ← if c = '\\' then Text.escaped? rest
        else if Text.isOrdinary c then some (c, rest) else none
      let (cs, rest) ← basic? fuel rest
      return (c :: cs, rest)

/-- A text behind a single quote. -/
def literal? (cs : List Char) : Option (List Char × List Char) :=
  let inside (c : Char) : Bool := c ≠ '\'' && Text.isOrdinary c
  match cs.dropWhile inside with
  | '\'' :: rest => some (cs.takeWhile inside, rest)
  | _ => none

/-- A text without the blanks and line breaks at its start. -/
def skipLines (cs : List Char) : List Char :=
  cs.dropWhile fun c => c = ' ' || c = '\t' || c = '\n' || c = '\r'

/-- A text behind tripled quotes, on several lines.  Up to two quotes may stand right before the
closing ones.  Each step takes at least one character. -/
def lines? (quote : Char) : Nat → List Char → Option (List Char × List Char)
  | 0, _ => none
  | fuel + 1, cs => do
    let quotes := (cs.takeWhile (· = quote)).length
    if 3 ≤ quotes then
      let kept := min 2 (quotes - 3)
      return (List.replicate kept quote, cs.drop (kept + 3))
    match lineBreak? cs with
    | some rest =>
      let (cs, rest) ← lines? quote fuel rest
      return ('\n' :: cs, rest)
    | none =>
      match cs with
      | [] => none
      | c :: rest =>
        if quote = '"' ∧ c = '\\' then
          match lineBreak? (skipBlanks rest) with
          | some rest => lines? quote fuel (skipLines rest)
          | none =>
            let (c, rest) ← Text.escaped? rest
            let (cs, rest) ← lines? quote fuel rest
            return (c :: cs, rest)
        else if Text.isOrdinary c then
          let (cs, rest) ← lines? quote fuel rest
          return (c :: cs, rest)
        else none

/-- A text behind tripled quotes. -/
def block? (quote : Char) (cs : List Char) : Option (List Char × List Char) :=
  lines? quote (cs.length + 1) ((lineBreak? cs).getD cs)

/-- A text with its quotes. -/
def text? : List Char → Option (String × List Char)
  | '"' :: '"' :: '"' :: rest => (block? '"' rest).map fun (cs, rest) => (String.ofList cs, rest)
  | '\'' :: '\'' :: '\'' :: rest =>
    (block? '\'' rest).map fun (cs, rest) => (String.ofList cs, rest)
  | '"' :: rest => (basic? (rest.length + 1) rest).map fun (cs, rest) => (String.ofList cs, rest)
  | '\'' :: rest => (literal? rest).map fun (cs, rest) => (String.ofList cs, rest)
  | _ => none

/-- Whether a character may stand in a bare key. -/
def isKeyChar (c : Char) : Bool := c.isAlphanum || c = '_' || c = '-'

/-- A key, and what follows it. -/
def key? : List Char → Option (String × List Char)
  | '"' :: rest => (basic? (rest.length + 1) rest).map fun (cs, rest) => (String.ofList cs, rest)
  | '\'' :: rest => (literal? rest).map fun (cs, rest) => (String.ofList cs, rest)
  | cs =>
    if cs.takeWhile isKeyChar = [] then none
    else some (String.ofList (cs.takeWhile isKeyChar), cs.dropWhile isKeyChar)

/-- Keys with points between them, and what follows them and the blanks behind them.  Each step
takes at least one character. -/
def path? : Nat → List Char → Option (List String × List Char)
  | 0, _ => none
  | fuel + 1, cs => do
    let (key, rest) ← key? (skipBlanks cs)
    match skipBlanks rest with
    | '.' :: rest =>
      let (keys, rest) ← path? fuel rest
      return (key :: keys, rest)
    | rest => return ([key], rest)

end ChainHead.Settings.Toml
