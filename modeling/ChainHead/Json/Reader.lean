import ChainHead.Json.Token

/-!
# Reading and writing JSON text

`Json.text` writes a value without blanks.  `Json.ofText?` reads a text: it must hold one value and
nothing else, and no more than 127 arrays and objects may be open at one place.
-/

namespace ChainHead.Json

/-! ## Writing -/

/-- The tokens of a value. -/
def tokens : Json → List Token
  | .null => [.null]
  | .bool b => [.bool b]
  | .num n => [.num n]
  | .real literal => [.real literal]
  | .str s => [.str s]
  | .arr elements => .openArray :: elementTokens elements
  | .obj fields => .openObject :: fieldTokens fields
where
  /-- The tokens of the elements of an array, and of its end. -/
  elementTokens : List Json → List Token
    | [] => [.closeArray]
    | [j] => j.tokens ++ [.closeArray]
    | j :: rest => j.tokens ++ .comma :: elementTokens rest
  /-- The tokens of the fields of an object, and of its end. -/
  fieldTokens : List (String × Json) → List Token
    | [] => [.closeObject]
    | [(name, j)] => .str name :: .colon :: j.tokens ++ [.closeObject]
    | (name, j) :: rest => .str name :: .colon :: j.tokens ++ .comma :: fieldTokens rest

/-- The text of a value. -/
def text (j : Json) : String := String.ofList (j.tokens.flatMap Token.text)

/-! ## Reading

Each call takes at least one token or hands the same tokens to a function that does, so twice the
number of tokens is enough fuel. -/

mutual

/-- The value at the start of the tokens, and what follows it. -/
def value? : Nat → List Token → Option (Json × List Token)
  | 0, _ => none
  | _ + 1, .null :: rest => some (.null, rest)
  | _ + 1, .bool b :: rest => some (.bool b, rest)
  | _ + 1, .num n :: rest => some (.num n, rest)
  | _ + 1, .real literal :: rest => some (.real literal, rest)
  | _ + 1, .str s :: rest => some (.str s, rest)
  | _ + 1, .openArray :: .closeArray :: rest => some (.arr [], rest)
  | _ + 1, .openObject :: .closeObject :: rest => some (.obj [], rest)
  | fuel + 1, .openArray :: rest => (elements? fuel rest).map fun (js, rest) => (.arr js, rest)
  | fuel + 1, .openObject :: rest => (fields? fuel rest).map fun (fs, rest) => (.obj fs, rest)
  | _ + 1, _ => none

/-- The elements of an array from the first one on, up to its end. -/
def elements? : Nat → List Token → Option (List Json × List Token)
  | 0, _ => none
  | fuel + 1, tokens => do
    let (j, rest) ← value? fuel tokens
    match rest with
    | .closeArray :: rest => return ([j], rest)
    | .comma :: rest =>
      let (js, rest) ← elements? fuel rest
      return (j :: js, rest)
    | _ => none

/-- The fields of an object from the first one on, up to its end. -/
def fields? : Nat → List Token → Option (List (String × Json) × List Token)
  | 0, _ => none
  | fuel + 1, .str name :: .colon :: tokens => do
    let (j, rest) ← value? fuel tokens
    match rest with
    | .closeObject :: rest => return ([(name, j)], rest)
    | .comma :: rest =>
      let (fs, rest) ← fields? fuel rest
      return ((name, j) :: fs, rest)
    | _ => none
  | _ + 1, _ => none

end

/-- The value that a list of tokens spells. -/
def ofTokens? (tokens : List Token) : Option Json := do
  let (j, rest) ← value? (2 * tokens.length + 1) tokens
  if rest.isEmpty then return j else none

/-- The greatest depth of a value that is read. -/
def maxDepth : Nat := 127

/-- The value that a text spells. -/
def ofText? (s : String) : Option Json := do
  let tokens ← Token.scan? s.toList
  let j ← ofTokens? tokens
  if j.depth ≤ maxDepth then return j else none

end ChainHead.Json
