/-!
# JSON values

A JSON value keeps what its text says: the fields of an object stay in their order, and a field
given twice stays twice, so that a reader of records can tell that it was.

Numbers without fraction and exponent are integers of any size.  Every other number, `-0` among
them, is kept as its literal: nothing in this library computes with it.
-/

namespace ChainHead

/-- A JSON value. -/
inductive Json where
  /-- The null value. -/
  | null
  /-- A truth value. -/
  | bool (b : Bool)
  /-- An integer. -/
  | num (n : Int)
  /-- A number that is not written as an integer. -/
  | real (literal : String)
  /-- A string. -/
  | str (s : String)
  /-- An array. -/
  | arr (elements : List Json)
  /-- An object, with its fields in order. -/
  | obj (fields : List (String × Json))
deriving Inhabited

namespace Json

/-- The number of arrays and objects around the innermost part of the value. -/
def depth : Json → Nat
  | .arr elements => elementsDepth elements + 1
  | .obj fields => fieldsDepth fields + 1
  | _ => 0
where
  /-- The greatest depth among the elements. -/
  elementsDepth : List Json → Nat
    | [] => 0
    | j :: rest => max j.depth (elementsDepth rest)
  /-- The greatest depth among the values of the fields. -/
  fieldsDepth : List (String × Json) → Nat
    | [] => 0
    | (_, j) :: rest => max j.depth (fieldsDepth rest)

/-- The value of the first field of that name, if the value is an object that has one. -/
def field? (j : Json) (name : String) : Option Json :=
  match j with
  | .obj fields => fields.lookup name
  | _ => none

/-- The value of a field, and null where there is none. -/
def fieldD (j : Json) (name : String) : Json := (j.field? name).getD .null

/-- The value of an optional part: null when it is unset. -/
def ofOption {α : Type} (write : α → Json) : Option α → Json
  | none => .null
  | some a => write a

/-- A field that is left out when its value is unset. -/
def fieldIfSet {α : Type} (name : String) (write : α → Json) : Option α → List (String × Json)
  | none => []
  | some a => [(name, write a)]

end Json

end ChainHead
