/-!
# Settings

Settings form a tree: tables by key, lists, and plain values.  Layers of settings are merged from
the lowest to the highest.  Where both layers have a table, the tables are merged key by key, and
otherwise the value of the higher layer takes the place of the lower one.
-/

namespace ChainHead.Settings

/-- A value of a setting. -/
inductive Value where
  /-- No value. -/
  | unset
  /-- A truth value. -/
  | truth (b : Bool)
  /-- An integer. -/
  | number (n : Int)
  /-- A number that is not written as an integer. -/
  | real (literal : String)
  /-- A text. -/
  | text (s : String)
  /-- A list. -/
  | list (elements : List Value)
  /-- A table, in which every key stands once. -/
  | table (entries : List (String × Value))
deriving Inhabited

namespace Value

/-- The least number without sign that does not fit into 64 bits with a sign. -/
def signLimit : Nat := 0x8000000000000000

/-- A list of entries with one key set: in its place, or else at the end. -/
def put {α : Type} (key : String) (a : α) : List (String × α) → List (String × α)
  | [] => [(key, a)]
  | (other, b) :: rest => if other = key then (key, a) :: rest else (other, b) :: put key a rest

/-- A value under a value of a higher layer. -/
def merge (low : Value) : Value → Value
  | .table high =>
    match low with
    | .table entries => .table (mergeEntries entries high)
    | _ => .table high
  | high => high
where
  /-- The entries of a table under those of a higher layer. -/
  mergeEntries (entries : List (String × Value)) : List (String × Value) → List (String × Value)
    | [] => entries
    | (key, high) :: rest =>
      let merged := match entries.lookup key with
        | some low => merge low high
        | none => high
      mergeEntries (put key merged entries) rest

/-- The value at a path of keys. -/
def at? (v : Value) : List String → Option Value
  | [] => some v
  | key :: path =>
    match v with
    | .table entries => (entries.lookup key).bind fun v => v.at? path
    | _ => none

/-- The value that has another at the end of a path of keys. -/
def nest (v : Value) : List String → Value
  | [] => v
  | key :: path => .table [(key, v.nest path)]

end Value

end ChainHead.Settings
