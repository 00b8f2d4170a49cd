import Mathlib.Data.List.Nodup
import Mathlib.Data.List.Perm.Subperm
import Mathlib.Data.List.Pairwise
import Mathlib.Logic.Relation
import Mathlib.Tactic.Common
import ChainHead.Build.Run

/-!
# The job table keeps its indexes in step

The table holds the entries, an index by parent and the order of the starts.  The three say the same
thing (`JobTable.Indexed`), and every way to change the table keeps them in step.
-/

namespace ChainHead

/-! ## Keys -/

namespace Assoc

variable {κ α : Type} [DecidableEq κ] {m : Assoc κ α} {key : κ} {value : α}

/-- The keys in the order of the pairs. -/
def keys (m : Assoc κ α) : List κ := m.entries.map (·.1)

lemma keys_erase (m : Assoc κ α) (key : κ) : (m.erase key).keys = m.keys.filter (· ≠ key) := by
  simp only [keys, erase, List.filter_map]
  rfl

lemma keys_insert (m : Assoc κ α) (key : κ) (value : α) :
    (m.insert key value).keys = m.keys.filter (· ≠ key) ++ [key] := by
  rw [← keys_erase]
  simp [keys, insert]

omit [DecidableEq κ] in
lemma size_eq_length_keys (m : Assoc κ α) : m.size = m.keys.length := by
  simp [size, keys]

lemma exists_get?_iff : (∃ value, m.get? key = some value) ↔ key ∈ m.keys := by
  simp only [get?, keys, Option.map_eq_some_iff, List.mem_map]
  constructor
  · rintro ⟨value, p, hp, -⟩
    exact ⟨p, List.mem_of_find?_eq_some hp, by simpa using List.find?_some hp⟩
  · rintro ⟨p, hp, hkey⟩
    cases hfind : m.entries.find? (·.1 = key) with
    | some q => exact ⟨q.2, q, rfl, rfl⟩
    | none => exact absurd hkey (by simpa using List.find?_eq_none.1 hfind p hp)

lemma get?_eq_none_iff : m.get? key = none ↔ key ∉ m.keys := by
  rw [← exists_get?_iff, Option.eq_none_iff_forall_ne_some]
  push Not
  rfl

/-- Where no key stands twice, what is found is what stands there. -/
lemma get?_eq_some_iff (h : m.keys.Nodup) : m.get? key = some value ↔ (key, value) ∈ m.entries := by
  simp only [get?, Option.map_eq_some_iff]
  constructor
  · rintro ⟨p, hp, rfl⟩
    have hkey : p.1 = key := by simpa using List.find?_some hp
    rw [← hkey]
    exact List.mem_of_find?_eq_some hp
  · intro hmem
    cases hfind : m.entries.find? (·.1 = key) with
    | none => simpa using List.find?_eq_none.1 hfind _ hmem
    | some q =>
      have hkey : q.1 = key := by simpa using List.find?_some hfind
      have hq : q = (key, value) :=
        List.inj_on_of_nodup_map h (List.mem_of_find?_eq_some hfind) hmem hkey
      exact ⟨q, rfl, by rw [hq]⟩

end Assoc

/-! ## The table -/

namespace JobTable

variable {t : JobTable} {id id' : PayloadId} {entry : JobEntry} {parent : Hash} {k : Nat}

/-- The order and the index by parent say what the entries say, and the jobs stand in the order of
their numbers. -/
structure Indexed (t : JobTable) : Prop where
  order_eq : t.order = t.entries.keys
  nodup : t.entries.keys.Nodup
  byParent : ∀ parent id, t.byParent.get? parent = some id ↔
    ∃ entry, t.entries.get? id = some entry ∧ entry.parent = parent
  increasing : t.jobs.Pairwise (· < ·)

lemma indexed_empty : empty.Indexed where
  order_eq := rfl
  nodup := .nil
  byParent parent id := by simp [empty]
  increasing := .nil

lemma mem_jobs_iff (h : t.entries.keys.Nodup) :
    k ∈ t.jobs ↔ ∃ id entry, t.entries.get? id = some entry ∧ entry.job = k := by
  simp only [jobs, Assoc.values, List.map_map, List.mem_map, Prod.exists,
    Assoc.get?_eq_some_iff h]
  rfl

/-- A job is in the table under one id only. -/
lemma Indexed.id_unique (h : t.Indexed) {entry' : JobEntry}
    (hentry : t.entries.get? id = some entry) (hentry' : t.entries.get? id' = some entry')
    (hjob : entry.job = entry'.job) : id = id' := by
  have hnodup : (t.entries.entries.map fun p => p.2.job).Nodup := by
    have hjobs : t.jobs.Nodup := h.increasing.imp Nat.ne_of_lt
    rwa [jobs, Assoc.values, List.map_map] at hjobs
  have hpair := List.inj_on_of_nodup_map hnodup ((Assoc.get?_eq_some_iff h.nodup).1 hentry)
    ((Assoc.get?_eq_some_iff h.nodup).1 hentry') hjob
  exact congrArg Prod.fst hpair

/-! ### Removal -/

@[simp] lemma erase_entries (t : JobTable) (id : PayloadId) :
    (t.erase id).entries = t.entries.erase id := by
  unfold erase
  cases hentry : t.entries.get? id with
  | some entry => rfl
  | none =>
    -- nothing stands under the id, so nothing is filtered out
    have hkeys : ∀ p ∈ t.entries.entries, p.1 ≠ id := by
      intro p hp heq
      exact Assoc.get?_eq_none_iff.1 hentry (List.mem_map.2 ⟨p, hp, heq⟩)
    have hfilter : t.entries.entries.filter (·.1 ≠ id) = t.entries.entries :=
      List.filter_eq_self.2 fun p hp => by simpa using hkeys p hp
    show t.entries = ⟨t.entries.entries.filter (·.1 ≠ id)⟩
    rw [hfilter]

lemma Indexed.erase_order (h : t.Indexed) (id : PayloadId) :
    (t.erase id).order = t.order.filter (· ≠ id) := by
  unfold erase
  cases hentry : t.entries.get? id with
  | some entry => rfl
  | none =>
    have hid : id ∉ t.order := h.order_eq ▸ Assoc.get?_eq_none_iff.1 hentry
    refine (List.filter_eq_self.2 fun other hother => ?_).symm
    simpa using ne_of_mem_of_not_mem hother hid

lemma Indexed.erase_byParent (h : t.Indexed) (id : PayloadId) :
    (t.erase id).byParent.get? parent = some id' ↔
      t.byParent.get? parent = some id' ∧ id' ≠ id := by
  unfold erase
  cases hentry : t.entries.get? id with
  | none =>
    refine (and_iff_left_of_imp fun hparent => ?_).symm
    rintro rfl
    obtain ⟨entry, hentry', -⟩ := (h.byParent _ _).1 hparent
    cases hentry.symm.trans hentry'
  | some entry =>
    have hindex : t.byParent.get? entry.parent = some id := (h.byParent _ _).2 ⟨entry, hentry, rfl⟩
    show (if t.byParent.get? entry.parent = some id then t.byParent.erase entry.parent
      else t.byParent).get? parent = some id' ↔ _
    rw [if_pos hindex, Assoc.get?_erase]
    split_ifs with hsame
    · subst hsame
      rw [hindex]
      simp [eq_comm]
    · refine (and_iff_left_of_imp fun hparent => ?_).symm
      rintro rfl
      obtain ⟨entry', hentry', hparent'⟩ := (h.byParent _ _).1 hparent
      cases hentry.symm.trans hentry'
      exact hsame hparent'.symm

lemma jobs_erase_sublist (t : JobTable) (id : PayloadId) : (t.erase id).jobs.Sublist t.jobs := by
  simp only [jobs, Assoc.values, erase_entries, Assoc.erase]
  exact (List.filter_sublist.map _).map _

lemma Indexed.erase (h : t.Indexed) (id : PayloadId) : (t.erase id).Indexed where
  order_eq := by rw [h.erase_order, erase_entries, Assoc.keys_erase, h.order_eq]
  nodup := by
    rw [erase_entries, Assoc.keys_erase]
    exact h.nodup.filter _
  byParent parent other := by
    rw [h.erase_byParent, erase_entries, Assoc.get?_erase, h.byParent]
    by_cases hother : other = id
    · simp [hother]
    · simp [hother]
  increasing := h.increasing.sublist (t.jobs_erase_sublist id)

lemma Indexed.size_erase (h : t.Indexed) (hentry : t.entries.get? id = some entry) :
    (t.erase id).entries.size + 1 = t.entries.size := by
  have hmem : id ∈ t.entries.keys := Assoc.exists_get?_iff.1 ⟨entry, hentry⟩
  have herase : (t.erase id).entries.keys = t.entries.keys.erase id := by
    rw [erase_entries, Assoc.keys_erase, h.nodup.erase_eq_filter]
    simp only [ne_eq, decide_not]
    rfl
  rw [Assoc.size_eq_length_keys, Assoc.size_eq_length_keys, herase,
    List.length_erase_add_one hmem]

/-- A job is gone once its id is removed, and the others stay. -/
lemma Indexed.mem_jobs_erase (h : t.Indexed) (hentry : t.entries.get? id = some entry) :
    k ∈ (t.erase id).jobs ↔ k ∈ t.jobs ∧ k ≠ entry.job := by
  rw [mem_jobs_iff (h.erase id).nodup, mem_jobs_iff h.nodup]
  simp only [erase_entries, Assoc.get?_erase]
  constructor
  · rintro ⟨other, entry', hother, rfl⟩
    split_ifs at hother with hsame
    exact ⟨⟨other, entry', hother, rfl⟩, fun hjob => hsame (h.id_unique hother hentry hjob)⟩
  · rintro ⟨⟨other, entry', hother, rfl⟩, hjob⟩
    have hsame : other ≠ id := by
      rintro rfl
      cases hentry.symm.trans hother
      exact hjob rfl
    exact ⟨other, entry', by rw [if_neg hsame, hother], rfl⟩

/-! ### Eviction -/

/-- To remove the job at the front of the order leaves the others in their order. -/
lemma Indexed.erase_order_of_cons (h : t.Indexed) {rest : List PayloadId}
    (horder : t.order = id :: rest) : (t.erase id).order = rest := by
  have hnodup : (id :: rest).Nodup := horder ▸ h.order_eq ▸ h.nodup
  rw [h.erase_order, horder, List.filter_cons_of_neg (by simp), List.filter_eq_self]
  intro other hother
  simpa using ne_of_mem_of_not_mem hother (List.nodup_cons.1 hnodup).1

lemma evictions_of_lt (hroom : t.entries.size < capacity) (fuel : Nat) :
    evictions fuel t = [] := by
  cases fuel with
  | zero => rfl
  | succ fuel => rw [evictions, if_pos hroom]

lemma evicted_of_lt (hroom : t.entries.size < capacity) : t.evicted = [] :=
  evictions_of_lt hroom _

/-- Where the fuel lasts, the first jobs of the order go, so many as there are too many.  Each round
takes the first one off. -/
theorem Indexed.evictions_eq_take (h : t.Indexed) {fuel : Nat} (hfuel : t.entries.size ≤ fuel) :
    evictions fuel t = t.order.take (t.entries.size + 1 - capacity) := by
  induction fuel generalizing t with
  | zero =>
    have hnone : t.entries.size + 1 - capacity = 0 := by rw [Nat.le_zero.1 hfuel]; rfl
    rw [hnone, List.take_zero, evictions]
  | succ fuel ih =>
    by_cases hroom : t.entries.size < capacity
    · have hnone : t.entries.size + 1 - capacity = 0 := by omega
      rw [hnone, List.take_zero, evictions_of_lt hroom]
    · rw [evictions, if_neg hroom]
      cases horder : t.order with
      | nil => rw [List.take_nil]
      | cons oldest rest =>
        have hmem : oldest ∈ t.entries.keys := h.order_eq ▸ horder ▸ List.mem_cons_self
        obtain ⟨entry, hentry⟩ := Assoc.exists_get?_iff.2 hmem
        have hsize := h.size_erase hentry
        have hcount : t.entries.size + 1 - capacity =
            (t.erase oldest).entries.size + 1 - capacity + 1 := by omega
        dsimp only
        rw [ih (h.erase oldest) (by omega), h.erase_order_of_cons horder, hcount,
          List.take_succ_cons]

theorem Indexed.evicted_eq_take (h : t.Indexed) :
    t.evicted = t.order.take (t.entries.size + 1 - capacity) :=
  h.evictions_eq_take (Nat.le_refl _)

/-! ### Insertion -/

@[simp] lemma insert_entries (t : JobTable) (id : PayloadId) (entry : JobEntry) :
    (t.insert id entry).entries = t.entries.insert id entry := rfl

section Insertion

variable (hfree : t.entries.get? id = none)
include hfree

lemma keys_insert_of_free :
    (t.insert id entry).entries.keys = t.entries.keys ++ [id] := by
  have hid : id ∉ t.entries.keys := Assoc.get?_eq_none_iff.1 hfree
  rw [insert_entries, Assoc.keys_insert]
  congr 1
  refine List.filter_eq_self.2 fun other hother => ?_
  simpa using ne_of_mem_of_not_mem hother hid

lemma jobs_insert_of_free : (t.insert id entry).jobs = t.jobs ++ [entry.job] := by
  have herase := t.erase_entries id
  simp only [JobTable.erase, hfree] at herase
  simp [jobs, Assoc.values, Assoc.insert, ← herase]

lemma size_insert_of_free : (t.insert id entry).entries.size = t.entries.size + 1 := by
  rw [Assoc.size_eq_length_keys, keys_insert_of_free hfree, Assoc.size_eq_length_keys,
    List.length_append, List.length_singleton]

/-- A job with a new id, a new parent and a number above all others can be added. -/
lemma Indexed.insert (h : t.Indexed) (hparent : t.byParent.get? entry.parent = none)
    (hjob : ∀ k ∈ t.jobs, k < entry.job) : (t.insert id entry).Indexed where
  order_eq := by
    rw [keys_insert_of_free hfree, ← h.order_eq]
    rfl
  nodup := by
    rw [keys_insert_of_free hfree]
    exact List.concat_eq_append ▸ h.nodup.concat (Assoc.get?_eq_none_iff.1 hfree)
  byParent parent other := by
    show (t.byParent.insert entry.parent id).get? parent = some other ↔ _
    rw [insert_entries, Assoc.get?_insert, Assoc.get?_insert]
    by_cases hsame : parent = entry.parent
    · -- on this parent there is the new job and no other
      rw [if_pos hsame, hsame]
      constructor
      · rintro ⟨⟩
        exact ⟨entry, if_pos rfl, rfl⟩
      · rintro ⟨entry', hentry', hparent'⟩
        split_ifs at hentry' with hother
        · rw [hother]
        · have hindex := (h.byParent _ _).2 ⟨entry', hentry', hparent'⟩
          cases hparent.symm.trans hindex
    · rw [if_neg hsame, h.byParent]
      by_cases hother : other = id
      · subst hother
        simp only [hfree, if_pos, reduceCtorEq, false_and, exists_false, Option.some.injEq,
          false_iff, not_exists, not_and]
        rintro _ rfl hparent'
        exact hsame hparent'.symm
      · simp only [if_neg hother]
  increasing := by
    rw [jobs_insert_of_free hfree]
    refine List.pairwise_append.2 ⟨h.increasing, List.pairwise_singleton _ _, ?_⟩
    intro k hk k' hk'
    rw [List.mem_singleton.1 hk']
    exact hjob k hk

end Insertion

end JobTable

end ChainHead
