import Mathlib.Tactic.Common
import Mathlib.Data.List.Nodup
import ChainHead.Settings.Config

/-!
# Merging settings

A merge goes through the entries of the higher layer one by one, so it takes the first of two
entries with one key for a lower layer of the second.  Where tables are *tidy*, which is to say that
each key stands once in them, what stands under a key after a merge depends on what stood there
before in the two layers (`Value.lookup_mergeEntries`), and on nothing else.

It follows what a merge says of any path of keys, not only of one key.  A layer may be silent on a
path, and then the lower one is heard.  Otherwise it rules that a table stands there, or a plain
value, or nothing, since there is a plain value on the way (`Value.ruling_merge`).  In a stack of
layers the highest one that is not silent decides (`ruling_merged`).
-/

namespace ChainHead.Settings

/-! ## Entries -/

section Entries

variable {α : Type} {P : α → Prop} {entries : List (String × α)} {key other : String} {a : α}

/-- Entries in which each key stands once, and only over what has a property. -/
structure Distinct (P : α → Prop) (entries : List (String × α)) : Prop where
  /-- Each key stands once. -/
  nodup : (entries.map Prod.fst).Nodup
  /-- What stands under a key has the property. -/
  below : ∀ key a, entries.lookup key = some a → P a

lemma lookup_eq_none_iff_notMem : entries.lookup key = none ↔ key ∉ entries.map Prod.fst := by
  simp only [List.lookup_eq_none_iff, bne_iff_ne, List.mem_map, not_exists, not_and]
  exact forall₂_congr fun p _ => ne_comm

lemma lookup_entry_cons {first : String} {b : α} :
    ((first, b) :: entries).lookup key = if key = first then some b else entries.lookup key := by
  by_cases h : key = first
  · rw [if_pos h, h, List.lookup_cons_self]
  · rw [if_neg h, List.lookup_cons, beq_eq_false_iff_ne.2 h]

lemma lookup_put :
    (Value.put key a entries).lookup other =
      if other = key then some a else entries.lookup other := by
  induction entries with
  | nil => rw [Value.put, lookup_entry_cons]
  | cons p rest ih =>
    obtain ⟨first, b⟩ := p
    by_cases hfirst : first = key
    · rw [Value.put, if_pos hfirst, hfirst, lookup_entry_cons, lookup_entry_cons]
      split_ifs <;> rfl
    · rw [Value.put, if_neg hfirst, lookup_entry_cons, ih, lookup_entry_cons]
      by_cases hother : other = first
      · rw [if_pos hother, if_neg fun h => hfirst (hother ▸ h), if_pos hother]
      · rw [if_neg hother, if_neg hother]

lemma mem_keys_put : other ∈ (Value.put key a entries).map Prod.fst ↔
    other = key ∨ other ∈ entries.map Prod.fst := by
  rw [← not_iff_not, ← lookup_eq_none_iff_notMem, lookup_put, not_or, ← lookup_eq_none_iff_notMem]
  by_cases hother : other = key
  · simp [hother]
  · simp [hother]

lemma nodup_put (h : (entries.map Prod.fst).Nodup) :
    ((Value.put key a entries).map Prod.fst).Nodup := by
  induction entries with
  | nil => exact List.nodup_singleton key
  | cons p rest ih =>
    obtain ⟨first, b⟩ := p
    obtain ⟨hnotMem, hrest⟩ := List.nodup_cons.1 h
    by_cases hfirst : first = key
    · rw [Value.put, if_pos hfirst, ← hfirst]
      exact List.nodup_cons.2 ⟨hnotMem, hrest⟩
    · rw [Value.put, if_neg hfirst]
      refine List.nodup_cons.2 ⟨fun hmem => ?_, ih hrest⟩
      exact (mem_keys_put.1 hmem).elim hfirst hnotMem

/-- A new key is put at the end. -/
lemma put_of_lookup_eq_none (h : entries.lookup key = none) :
    Value.put key a entries = entries ++ [(key, a)] := by
  induction entries with
  | nil => rfl
  | cons p rest ih =>
    obtain ⟨first, b⟩ := p
    rw [lookup_entry_cons] at h
    split_ifs at h with hfirst
    rw [Value.put, if_neg (Ne.symm hfirst), ih h, List.cons_append]

namespace Distinct

lemma nil : Distinct P [] where
  nodup := List.nodup_nil
  below _ _ h := by cases h

lemma put (h : Distinct P entries) (ha : P a) : Distinct P (Value.put key a entries) where
  nodup := nodup_put h.nodup
  below other b hb := by
    rw [lookup_put] at hb
    split_ifs at hb with hother
    · cases hb
      exact ha
    · exact h.below other b hb

lemma of_mem (nodup : (entries.map Prod.fst).Nodup) (h : ∀ p ∈ entries, P p.2) :
    Distinct P entries where
  nodup := nodup
  below key a ha := by
    obtain ⟨before, after, rfl, -⟩ := List.lookup_eq_some_iff.1 ha
    exact h (key, a) (List.mem_append_right before List.mem_cons_self)

lemma append (h : Distinct P entries) (hkey : entries.lookup key = none) (ha : P a) :
    Distinct P (entries ++ [(key, a)]) :=
  put_of_lookup_eq_none hkey ▸ h.put ha

end Distinct

end Entries

namespace Value

variable {v low high : Value} {entries : List (String × Value)} {key : String}
  {path : List String}

/-! ## Tidy values -/

/-- The value is a table. -/
def IsTable (v : Value) : Prop := ∃ entries, v = .table entries

/-- Each key stands once in a table, and in the tables that stand in it under keys.  What is in a
list does not matter, since no list is merged. -/
inductive Tidy : Value → Prop where
  /-- A value that is no table. -/
  | plain {v : Value} (h : ¬ v.IsTable) : Tidy v
  /-- A table. -/
  | table {entries : List (String × Value)} (nodup : (entries.map Prod.fst).Nodup)
      (below : ∀ key v, entries.lookup key = some v → Tidy v) : Tidy (.table entries)

@[simp] lemma isTable_table : (table entries).IsTable := ⟨entries, rfl⟩

lemma tidy_table_iff : (table entries).Tidy ↔ Distinct Tidy entries := by
  constructor
  · rintro (hplain | ⟨nodup, below⟩)
    · exact absurd isTable_table hplain
    · exact ⟨nodup, below⟩
  · exact fun h => .table h.nodup h.below

lemma merge_of_not_isTable (h : ¬ high.IsTable) : low.merge high = high := by
  cases high with
  | table entries => exact absurd isTable_table h
  | _ => simp only [merge]

lemma merge_table_of_not_isTable (h : ¬ low.IsTable) :
    low.merge (.table entries) = .table entries := by
  cases low with
  | table entries => exact absurd isTable_table h
  | _ => simp only [merge]

@[simp] lemma merge_table_table {lower : List (String × Value)} :
    (table lower).merge (.table entries) = .table (merge.mergeEntries lower entries) := by
  simp only [merge]

/-- What stands under a key of merged tables comes of what stood there in the two tables. -/
lemma lookup_mergeEntries {lower : List (String × Value)} (h : (entries.map Prod.fst).Nodup) :
    (merge.mergeEntries lower entries).lookup key =
      Option.merge merge (lower.lookup key) (entries.lookup key) := by
  induction entries generalizing lower with
  | nil => simp [merge.mergeEntries, Option.merge_none_right]
  | cons p rest ih =>
    obtain ⟨first, v⟩ := p
    obtain ⟨hnotMem, hrest⟩ := List.nodup_cons.1 h
    rw [merge.mergeEntries, ih hrest, lookup_put, lookup_entry_cons]
    by_cases hfirst : key = first
    · subst hfirst
      rw [if_pos rfl, if_pos rfl, lookup_eq_none_iff_notMem.2 hnotMem]
      cases lower.lookup key <;> rfl
    · rw [if_neg hfirst, if_neg hfirst]

lemma nodup_mergeEntries {lower : List (String × Value)} (h : (lower.map Prod.fst).Nodup) :
    ((merge.mergeEntries lower entries).map Prod.fst).Nodup := by
  induction entries generalizing lower with
  | nil => rwa [merge.mergeEntries]
  | cons p rest ih =>
    rw [merge.mergeEntries]
    exact ih (nodup_put h)

lemma Tidy.merge (hlow : low.Tidy) (hhigh : high.Tidy) : (low.merge high).Tidy := by
  induction hhigh generalizing low with
  | plain hplain =>
    rw [merge_of_not_isTable hplain]
    exact .plain hplain
  | @table entries nodup below ih =>
    by_cases htable : low.IsTable
    · obtain ⟨lower, rfl⟩ := htable
      have hlower := tidy_table_iff.1 hlow
      rw [merge_table_table]
      refine .table (nodup_mergeEntries hlower.nodup) fun key v hv => ?_
      rw [lookup_mergeEntries nodup] at hv
      cases hl : lower.lookup key with
      | none =>
        rw [hl, Option.merge_none_left] at hv
        exact below key v hv
      | some l =>
        cases hh : entries.lookup key with
        | none =>
          rw [hl, hh, Option.merge_none_right] at hv
          exact hlower.below key v (hv ▸ hl)
        | some h =>
          rw [hl, hh, Option.merge_some_some] at hv
          exact Option.some.inj hv ▸ ih key h hh (hlower.below key l hl)
    · rw [merge_table_of_not_isTable htable]
      exact .table nodup below

lemma isTable_merge (h : high.IsTable) : (low.merge high).IsTable := by
  obtain ⟨entries, rfl⟩ := h
  by_cases htable : low.IsTable
  · obtain ⟨lower, rfl⟩ := htable
    rw [merge_table_table]
    exact isTable_table
  · rw [merge_table_of_not_isTable htable]
    exact isTable_table

lemma tidy_nest (h : v.Tidy) : (v.nest path).Tidy := by
  induction path with
  | nil => exact h
  | cons key path ih =>
    exact tidy_table_iff.2 (Distinct.nil.put ih : Distinct Tidy (put key (v.nest path) []))

/-! ## Rulings -/

/-- What a layer says of a path. -/
inductive Ruling where
  /-- Nothing stands there. -/
  | nothing
  /-- A table stands there. -/
  | table
  /-- A value stands there that is no table. -/
  | plain (v : Value)

/-- What a value says of the place where it stands. -/
def here : Value → Ruling
  | .table _ => .table
  | v => .plain v

/-- What a layer says of a path.  A table that lacks a key of the path is silent, and a plain value
on the way rules that nothing stands there. -/
def ruling? (v : Value) : List String → Option Ruling
  | [] => some v.here
  | key :: path =>
    match v with
    | .table entries => (entries.lookup key).bind fun v => v.ruling? path
    | _ => some .nothing

/-- What stands at a path, where silence means nothing. -/
def ruling (v : Value) (path : List String) : Ruling := (v.ruling? path).getD .nothing

lemma here_of_not_isTable (h : ¬ v.IsTable) : v.here = .plain v := by
  cases v with
  | table entries => exact absurd isTable_table h
  | _ => rfl

lemma eq_of_here_eq_plain {w : Value} (h : v.here = .plain w) : v = w := by
  cases v <;> cases h <;> rfl

lemma here_ne_nothing : v.here ≠ .nothing := by
  cases v <;> exact nofun

@[simp] lemma ruling?_nil : v.ruling? [] = some v.here := by
  rw [ruling?]

@[simp] lemma ruling?_table_cons : (table entries).ruling? (key :: path) =
    (entries.lookup key).bind fun v => v.ruling? path := by
  rw [ruling?]

lemma ruling?_cons_of_not_isTable (h : ¬ v.IsTable) : v.ruling? (key :: path) = some .nothing := by
  cases v with
  | table entries => exact absurd isTable_table h
  | _ => rfl

@[simp] lemma at?_table_cons : (table entries).at? (key :: path) =
    (entries.lookup key).bind fun v => v.at? path := by
  rw [at?]

lemma at?_cons_of_not_isTable (h : ¬ v.IsTable) : v.at? (key :: path) = none := by
  cases v with
  | table entries => exact absurd isTable_table h
  | _ => rfl

lemma at?_append (path more : List String) :
    v.at? (path ++ more) = (v.at? path).bind fun w => w.at? more := by
  induction path generalizing v with
  | nil => simp only [at?, List.nil_append, Option.bind_some]
  | cons key path ih =>
    rw [List.cons_append]
    by_cases htable : v.IsTable
    · obtain ⟨entries, rfl⟩ := htable
      rw [at?_table_cons, at?_table_cons, Option.bind_assoc]
      exact congrArg _ (funext fun w => ih)
    · rw [at?_cons_of_not_isTable htable, at?_cons_of_not_isTable htable, Option.bind_none]

lemma at?_table_key : (table entries).at? [key] = entries.lookup key := by
  rw [at?_table_cons]
  cases entries.lookup key <;> rfl

/-- What rules over a path is the value at its end, or that there is none. -/
lemma ruling_eq : v.ruling path = ((v.at? path).map here).getD .nothing := by
  induction path generalizing v with
  | nil => rw [ruling, ruling?_nil, at?, Option.map_some]
  | cons key path ih =>
    rw [ruling]
    by_cases htable : v.IsTable
    · obtain ⟨entries, rfl⟩ := htable
      rw [ruling?_table_cons, at?_table_cons]
      cases entries.lookup key with
      | none => rfl
      | some below => exact ih
    · rw [ruling?_cons_of_not_isTable htable, at?_cons_of_not_isTable htable]
      rfl

lemma at?_of_ruling_eq_table (h : v.ruling path = .table) :
    ∃ entries, v.at? path = some (.table entries) := by
  rw [ruling_eq] at h
  cases hv : v.at? path with
  | none =>
    rw [hv] at h
    cases h
  | some w =>
    rw [hv, Option.map_some, Option.getD_some] at h
    cases w with
    | table entries => exact ⟨entries, rfl⟩
    | _ => cases h

lemma ruling?_of_at? {w : Value} (h : v.at? path = some w) : v.ruling? path = some w.here := by
  induction path generalizing v with
  | nil =>
    cases h
    exact ruling?_nil
  | cons key path ih =>
    by_cases htable : v.IsTable
    · obtain ⟨entries, rfl⟩ := htable
      rw [at?_table_cons] at h
      obtain ⟨below, hbelow, h⟩ := Option.bind_eq_some_iff.1 h
      rw [ruling?_table_cons, hbelow]
      exact ih h
    · rw [at?_cons_of_not_isTable htable] at h
      cases h

/-- A layer that is not silent on a path is not silent on the way to its end. -/
lemma ruling?_append_ne_none {more : List String} (h : v.ruling? (path ++ more) ≠ none) :
    v.ruling? path ≠ none := by
  induction path generalizing v with
  | nil => exact ruling?_nil ▸ nofun
  | cons key path ih =>
    by_cases htable : v.IsTable
    · obtain ⟨entries, rfl⟩ := htable
      rw [List.cons_append, ruling?_table_cons] at h
      rw [ruling?_table_cons]
      cases hbelow : entries.lookup key with
      | none =>
        rw [hbelow] at h
        exact h
      | some below =>
        rw [hbelow] at h
        exact ih h
    · exact ruling?_cons_of_not_isTable htable ▸ nofun

/-- Below a plain value, and below nothing, a layer rules that there is nothing. -/
lemma ruling?_append_of_ne_table {ruling : Ruling} {more : List String}
    (h : v.ruling? path = some ruling) (hplain : ruling ≠ .table) :
    v.ruling? (path ++ more) ≠ none := by
  induction path generalizing v with
  | nil =>
    rw [ruling?_nil] at h
    cases h
    have htable : ¬ v.IsTable := by
      rintro ⟨entries, rfl⟩
      exact hplain rfl
    cases more with
    | nil => exact ruling?_nil ▸ nofun
    | cons key more => exact ruling?_cons_of_not_isTable htable ▸ nofun
  | cons key path ih =>
    rw [List.cons_append]
    by_cases htable : v.IsTable
    · obtain ⟨entries, rfl⟩ := htable
      rw [ruling?_table_cons] at h ⊢
      obtain ⟨below, hbelow, h⟩ := Option.bind_eq_some_iff.1 h
      rw [hbelow]
      exact ih h
    · exact ruling?_cons_of_not_isTable htable ▸ nofun

lemma ruling_eq_nothing_iff : v.ruling path = .nothing ↔ v.at? path = none := by
  rw [ruling_eq]
  cases v.at? path with
  | none => exact iff_of_true rfl rfl
  | some w => exact iff_of_false here_ne_nothing nofun

/-- A layer that is not silent on a path of a merge decides, and otherwise the lower one does. -/
theorem ruling_merge (h : high.Tidy) :
    (low.merge high).ruling path = (high.ruling? path).getD (low.ruling path) := by
  induction path generalizing low high with
  | nil =>
    rw [ruling, ruling?_nil, ruling?_nil, Option.getD_some, Option.getD_some]
    cases h with
    | plain hplain => rw [merge_of_not_isTable hplain]
    | table nodup below =>
      by_cases htable : low.IsTable
      · obtain ⟨lower, rfl⟩ := htable
        rw [merge_table_table]
        rfl
      · rw [merge_table_of_not_isTable htable]
  | cons key path ih =>
    cases h with
    | plain hplain =>
      rw [merge_of_not_isTable hplain, ruling, ruling?_cons_of_not_isTable hplain]
      rfl
    | @table entries nodup below =>
      rw [ruling_eq (v := low)]
      by_cases htable : low.IsTable
      · obtain ⟨lower, rfl⟩ := htable
        rw [merge_table_table, ruling, ruling?_table_cons, lookup_mergeEntries nodup,
          ruling?_table_cons, at?_table_cons]
        cases hhigh : entries.lookup key with
        | none =>
          rw [Option.merge_none_right, Option.bind_none, Option.getD_none]
          cases lower.lookup key with
          | none => rfl
          | some l => exact ruling_eq
        | some h =>
          cases lower.lookup key with
          | none => rfl
          | some l => exact (ih (below key h hhigh)).trans (ruling_eq (v := l) ▸ rfl)
      · rw [merge_table_of_not_isTable htable, at?_cons_of_not_isTable htable]
        rfl

end Value

/-! ## Layers -/

variable {layers : List Value} {path : List String}

/-- What stands at a path of merged layers is what the highest layer says that is not silent. -/
theorem ruling_merged (h : ∀ v ∈ layers, v.Tidy) :
    (merged layers.reverse).ruling path =
      (layers.findSome? (·.ruling? path)).getD ((Value.table []).ruling path) := by
  induction layers with
  | nil => rfl
  | cons v layers ih =>
    rw [List.reverse_cons, merged, List.foldl_append, List.foldl_cons, List.foldl_nil,
      Value.ruling_merge (h v List.mem_cons_self), List.findSome?_cons]
    cases v.ruling? path with
    | none => exact ih fun w hw => h w (List.mem_cons_of_mem v hw)
    | some ruling => rfl

end ChainHead.Settings
