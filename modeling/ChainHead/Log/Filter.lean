import ChainHead.Log.Level

/-!
# Log filters

A filter is a list of directives between commas.  A directive is a level, or a target and a level
behind an equals sign; a target without a level lets everything of that target through.  A level is
given by its name in any case of letters or by its number, and `off` or `0` lets nothing through.

The directive with the longest target that an event's target starts with decides about the event,
and of two with the same target the later one.  What no directive speaks about does not pass.
-/

namespace ChainHead.Log

/-- One directive of a filter. -/
structure Directive where
  /-- What the target of an event has to start with; unset speaks about every event. -/
  target : Option String
  /-- The least grave level that passes, if anything does. -/
  threshold : Option Level
deriving DecidableEq

namespace Directive

/-- Reads a level, where unset lets nothing through. -/
def threshold? (s : String) : Option (Option Level) :=
  let s := String.ofList (s.toList.map Char.toLower)
  if s = "off" ∨ s = "0" then some none
  else (Level.all.find? fun l => s = l.name.toLower ∨ s = toString l.rank).map some

/-- Whether a character may stand in a target. -/
def isTargetChar (c : Char) : Bool := c.isAlphanum || c = '_' || c = ':' || c = '-' || 128 ≤ c.toNat

/-- Reads what follows the target of a directive. -/
def behindTarget? (target : List Char) : List Char → Option Directive
  | [] => some ⟨some (String.ofList target), some .trace⟩
  | ['='] => some ⟨some (String.ofList target), some .trace⟩
  | '=' :: level =>
    (threshold? (String.ofList level)).map fun l => ⟨some (String.ofList target), l⟩
  | _ => none

/-- Reads a directive. -/
def ofText? (s : String) : Option Directive :=
  match threshold? s with
  | some l => some ⟨none, l⟩
  | none =>
    let target := s.toList.takeWhile isTargetChar
    if target = [] then none else behindTarget? target (s.toList.dropWhile isTargetChar)

/-- Whether a directive speaks about events of a target. -/
def concerns (d : Directive) (target : String) : Bool :=
  match d.target with
  | none => true
  | some start => start.toList.isPrefixOf target.toList

/-- How closely a directive says what it speaks about. -/
def closeness (d : Directive) : Nat :=
  match d.target with
  | none => 0
  | some start => start.length + 1

/-- Whether a directive lets a level through. -/
def passes (d : Directive) (l : Level) : Bool :=
  match d.threshold with
  | none => false
  | some threshold => l.rank ≤ threshold.rank

end Directive

/-- The directives of a filter, in their order. -/
abbrev Filter := List Directive

namespace Filter

/-- The texts of the directives. -/
def parts (s : String) : List String := (s.splitOn ",").filter (· ≠ "")

/-- Reads a filter in which every directive is well-formed. -/
def ofText? (s : String) : Option Filter := (parts s).mapM Directive.ofText?

/-- Reads the well-formed directives of a filter.  If there are none, errors pass. -/
def ofTextOr (s : String) : Filter :=
  match (parts s).filterMap Directive.ofText? with
  | [] => [⟨none, some .error⟩]
  | directives => directives

/-- The filter that is set, unless it is none, and otherwise the standard one. -/
def choose (set : Option String) (standard : String) : Filter :=
  (set.bind ofText?).getD (ofTextOr standard)

/-- The directive that decides about events of a target. -/
def decisive? (f : Filter) (target : String) : Option Directive :=
  (f.filter (·.concerns target)).foldl
    (fun best d =>
      match best with
      | some b => if b.closeness ≤ d.closeness then some d else some b
      | none => some d)
    none

/-- Whether an event passes. -/
def passes (f : Filter) (target : String) (l : Level) : Bool :=
  match f.decisive? target with
  | some d => d.passes l
  | none => false

end Filter

end ChainHead.Log
