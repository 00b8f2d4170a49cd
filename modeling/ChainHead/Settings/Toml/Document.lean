import ChainHead.Settings.Toml.Scalar
import ChainHead.Settings.Toml.Table
import ChainHead.Settings.Toml.Text

/-!
# TOML documents

A document is read line by line: a header opens a table or adds one to a list of tables, and every
other line sets a value in the table of the last header.  Comments run to the end of their line, and
a document may start with a byte order mark.
-/

namespace ChainHead.Settings.Toml

/-- A text without the blanks, line breaks and comments at its start.  Each step takes at least one
character. -/
def skipSpace : Nat → List Char → List Char
  | 0, cs => cs
  | fuel + 1, cs =>
    match lineBreak? (skipComment (skipBlanks cs)) with
    | some rest => skipSpace fuel rest
    | none => skipComment (skipBlanks cs)

/-- The table that keys and values make. -/
def tableOf? (pairs : List (List String × String × Value)) : Option Value := do
  let entries ← pairs.foldlM (fun entries (path, key, v) => addValue [] path key v entries) []
  return (Node.table .defined entries).toValue

mutual

/-- The value at the start of a text, and what follows it.  Each call is made for a shorter text or
hands its text on once. -/
def value? : Nat → List Char → Option (Value × List Char)
  | 0, _ => none
  | fuel + 1, cs =>
    match cs with
    | '[' :: rest => (elements? fuel rest).map fun (vs, rest) => (.list vs, rest)
    | '\x7b' :: rest => do
      let (pairs, rest) ← match skipBlanks rest with
        | '\x7d' :: rest => some ([], rest)
        | rest => pairs? fuel rest
      return (← tableOf? pairs, rest)
    | '"' :: _ => (text? cs).map fun (s, rest) => (.text s, rest)
    | '\'' :: _ => (text? cs).map fun (s, rest) => (.text s, rest)
    | _ => (scalar? (word cs).1).map fun v => (v, (word cs).2)

/-- The elements of a list up to its end, and what follows. -/
def elements? : Nat → List Char → Option (List Value × List Char)
  | 0, _ => none
  | fuel + 1, cs =>
    match skipSpace (cs.length + 1) cs with
    | ']' :: rest => some ([], rest)
    | cs => do
      let (v, rest) ← value? fuel cs
      match skipSpace (rest.length + 1) rest with
      | ',' :: rest =>
        let (vs, rest) ← elements? fuel rest
        return (v :: vs, rest)
      | ']' :: rest => return ([v], rest)
      | _ => none

/-- The keys and values of a table from the first one up to its closing brace, and what follows. -/
def pairs? : Nat → List Char → Option (List (List String × String × Value) × List Char)
  | 0, _ => none
  | fuel + 1, cs => do
    let (pair, rest) ← pair? fuel cs
    match skipBlanks rest with
    | ',' :: rest =>
      let (pairs, rest) ← pairs? fuel rest
      return (pair :: pairs, rest)
    | '\x7d' :: rest => return ([pair], rest)
    | _ => none

/-- A key and its value: the parts of the key before the last, the last, and the value. -/
def pair? : Nat → List Char → Option ((List String × String × Value) × List Char)
  | 0, _ => none
  | fuel + 1, cs => do
    let (keys, rest) ← path? (cs.length + 1) cs
    let '=' :: rest := rest | none
    let (v, rest) ← value? fuel (skipBlanks rest)
    return ((keys.dropLast, keys.getLastD "", v), rest)

end

/-- A document that is being read: its tables, and the path of the last header. -/
structure Progress where
  /-- The tables. -/
  root : Entries
  /-- The path of the last header. -/
  header : List String

/-- Reads the keys of a header, and what follows its closing brackets. -/
def header? (closing : List Char) (cs : List Char) : Option (List String × List Char) := do
  let (keys, rest) ← path? (cs.length + 1) cs
  let rest ← List.isPrefixOf? closing rest
  return (keys, rest)

/-- Reads a line that is neither empty nor a comment, up to its end. -/
def readLine? (p : Progress) : List Char → Option (Progress × List Char)
  | '[' :: '[' :: rest => do
    let (keys, rest) ← header? [']', ']'] rest
    let root ← addToList keys.dropLast (keys.getLastD "") p.root
    return (⟨root, keys⟩, rest)
  | '[' :: rest => do
    let (keys, rest) ← header? [']'] rest
    let root ← addTable keys.dropLast (keys.getLastD "") p.root
    return (⟨root, keys⟩, rest)
  | cs => do
    let ((path, key, v), rest) ← pair? (2 * cs.length + 2) cs
    let root ← addValue p.header path key v p.root
    return ({ p with root }, rest)

/-- Reads lines.  Each step takes at least one character. -/
def readLines? (p : Progress) : Nat → List Char → Option Progress
  | 0, _ => none
  | fuel + 1, cs =>
    match skipComment (skipBlanks cs) with
    | [] => some p
    | c :: rest =>
      match lineBreak? (c :: rest) with
      | some rest => readLines? p fuel rest
      | none =>
        if (skipBlanks cs).head? = some '#' then none
        else do
          let (p, rest) ← readLine? p (c :: rest)
          readLines? p fuel (← lineEnd? rest)

/-- The settings that a document holds, if it is well-formed. -/
def ofText? (s : String) : Option Value := do
  let cs := match s.toList with
    | '\uFEFF' :: rest => rest
    | cs => cs
  let p ← readLines? ⟨[], []⟩ (cs.length + 1) cs
  return (Node.table .defined p.root).toValue

end ChainHead.Settings.Toml
