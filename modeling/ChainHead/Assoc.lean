/-!
# Association lists

A finite map as the list of its pairs.  It is seen through `Assoc.get?`, and each way to change it
has a lemma that says what `get?` then gives.  To put a value under a key removes the pair that was
there, so a map that is built from the empty one holds each key once.
-/

namespace ChainHead

/-- A finite map from keys to values. -/
structure Assoc (κ α : Type) where
  /-- The pairs of the map; of two for one key the first counts. -/
  entries : List (κ × α)

namespace Assoc

variable {κ α : Type} [DecidableEq κ]

/-- The map without entries. -/
def empty : Assoc κ α := ⟨[]⟩

/-- The value under a key. -/
def get? (m : Assoc κ α) (key : κ) : Option α := (m.entries.find? (·.1 = key)).map (·.2)

/-- The map without a key. -/
def erase (m : Assoc κ α) (key : κ) : Assoc κ α := ⟨m.entries.filter (·.1 ≠ key)⟩

/-- The map with a value under a key. -/
def insert (m : Assoc κ α) (key : κ) (value : α) : Assoc κ α :=
  ⟨(m.erase key).entries ++ [(key, value)]⟩

/-- The number of pairs. -/
def size (m : Assoc κ α) : Nat := m.entries.length

/-- The values of the map. -/
def values (m : Assoc κ α) : List α := m.entries.map (·.2)

/-! ## What is found after a change -/

@[simp] theorem get?_empty (key : κ) : (empty : Assoc κ α).get? key = none := rfl

theorem get?_erase (m : Assoc κ α) (key other : κ) :
    (m.erase key).get? other = if other = key then none else m.get? other := by
  simp only [get?, erase, List.find?_filter]
  by_cases same : other = key
  · subst same
    simp
  · rw [if_neg same]
    congr 2
    funext p
    by_cases found : p.1 = other
    · simp [found, same]
    · simp [found]

theorem get?_insert (m : Assoc κ α) (key other : κ) (value : α) :
    (m.insert key value).get? other = if other = key then some value else m.get? other := by
  have below := m.get?_erase key other
  simp only [get?, insert, List.find?_append, Option.map_or] at below ⊢
  rw [below]
  by_cases same : other = key
  · simp [same]
  · have ne : ¬ key = other := fun h => same h.symm
    simp [same, ne]

/-! ## Batches -/

/-- One change of a batch: a value to put under a key, or none to remove it. -/
structure Change (κ α : Type) where
  /-- The key. -/
  key : κ
  /-- The value that is to stand under it. -/
  value : Option α

/-- The map after one change. -/
def change (m : Assoc κ α) (c : Change κ α) : Assoc κ α :=
  match c.value with
  | some value => m.insert c.key value
  | none => m.erase c.key

/-- The map after a batch, of which nobody sees a part. -/
def apply (m : Assoc κ α) (batch : List (Change κ α)) : Assoc κ α := batch.foldl change m

end Assoc

end ChainHead
