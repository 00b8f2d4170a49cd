import ChainHead.Settings.Value

/-!
# Tables of TOML

A document builds its tables step by step, and each table may be defined once.  So it is kept how a
table came to be: it was defined by a header, implied by the header of a table inside it, or made by
a key with points.  A value that is written at once, a table between braces too, cannot be added to.

* A header may define a table that was implied, and no other that is there.
* A header of a list adds a table to a list that was made by such headers.
* A key with points goes through tables that were not defined by a header, and ends in one that was
  made by such a key.
-/

namespace ChainHead.Settings.Toml

/-- How a table came to be. -/
inductive Origin where
  /-- By a header of its own. -/
  | defined
  /-- By the header of a table inside it. -/
  | implied
  /-- By a key with points. -/
  | dotted
deriving DecidableEq

/-- A part of a document that is being built. -/
inductive Node where
  /-- A value that is complete. -/
  | value (v : Value)
  /-- A table. -/
  | table (origin : Origin) (entries : List (String × Node))
  /-- A list of tables, each with a header of its own. -/
  | tables (elements : List (List (String × Node)))
deriving Inhabited

/-- The entries of a table that is being built. -/
abbrev Entries := List (String × Node)

/-- A change of a table; there may be none. -/
abbrev Change := Origin → Entries → Option (Origin × Entries)

/-- Changes the table at the end of a path.  A table that is not there is made, and of a list the
last table is taken. -/
def changeAt (dotted : Bool) (change : Change) : List String → Change
  | [], origin, entries => change origin entries
  | key :: path, origin, entries =>
    let changed : Option Node :=
      match entries.lookup key with
      | none =>
        Option.map (fun (origin, below) => .table origin below)
          (changeAt dotted change path (if dotted then .dotted else .implied) [])
      | some (.value _) => none
      | some (.table inner below) =>
        if dotted ∧ inner = .defined then none
        else
          Option.map (fun (origin, below) => .table origin below)
            (changeAt dotted change path inner below)
      | some (.tables elements) =>
        match elements.getLast? with
        | none => none
        | some last =>
          Option.map (fun (_, below) => .tables (elements.dropLast ++ [below]))
            (changeAt dotted change path .defined last)
    changed.map fun node => (origin, Value.put key node entries)

/-- Sets a value under a key with the points before its last part. -/
def setValue (path : List String) (key : String) (v : Value) : Change :=
  changeAt true
    (fun origin entries =>
      if origin = .dotted ↔ path = [] then none
      else if (entries.lookup key).isSome then none
      else some (origin, entries ++ [(key, .value v)]))
    path

/-- Sets a value inside the table that the last header stands for. -/
def addValue (header path : List String) (key : String) (v : Value) (root : Entries) :
    Option Entries :=
  (changeAt false (setValue path key v) header .defined root).map Prod.snd

/-- Defines a table. -/
def addTable (path : List String) (key : String) (root : Entries) : Option Entries :=
  (changeAt false
    (fun origin entries =>
      match entries.lookup key with
      | none => some (origin, entries ++ [(key, .table .defined [])])
      | some (.table .implied inner) => some (origin, Value.put key (.table .defined inner) entries)
      | some _ => none)
    path .defined root).map Prod.snd

/-- Adds a table to a list of tables. -/
def addToList (path : List String) (key : String) (root : Entries) : Option Entries :=
  (changeAt false
    (fun origin entries =>
      match entries.lookup key with
      | none => some (origin, entries ++ [(key, .tables [[]])])
      | some (.tables elements) =>
        some (origin, Value.put key (.tables (elements ++ [[]])) entries)
      | some _ => none)
    path .defined root).map Prod.snd

/-- The value of a part of a document. -/
def Node.toValue : Node → Value
  | .value v => v
  | .table _ entries => .table (entriesToValue entries)
  | .tables elements => .list (elementsToValue elements)
where
  /-- The entries of a table. -/
  entriesToValue : List (String × Node) → List (String × Value)
    | [] => []
    | (key, node) :: rest => (key, node.toValue) :: entriesToValue rest
  /-- The tables of a list. -/
  elementsToValue : List (List (String × Node)) → List Value
    | [] => []
    | entries :: rest => .table (entriesToValue entries) :: elementsToValue rest

end ChainHead.Settings.Toml
