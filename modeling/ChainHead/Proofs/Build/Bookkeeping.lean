import ChainHead.Proofs.Build.JobTable
import ChainHead.Proofs.Build.Progress
import ChainHead.Proofs.Build.Work

/-!
# What the coordinator knows of its jobs

Whatever is started, superseded, evicted and cancelled, the three indexes of the job table agree,
the table stays within its bounds, and a job bears the mark of cancellation exactly if it is not in
the table any more (`Coordinator.consistent_of_fresh`).

The invariant is `Coordinator.Tracks`.  To remove a job keeps it without conditions.  To add one
needs a free id, a parent without a job and room in the table, and the last two are what
`Coordinator.makeRoom` is for.  The ids that the coordinator draws itself are free: of 33 successive
numbers no two have the same id (`Coordinator.mod_eq_of_draw_eq`), and the table does not hold so
many.
-/

namespace ChainHead

/-! ## Room in the table -/

namespace JobTable

variable {t : JobTable} {parent : Hash}

lemma Indexed.foldl_erase (h : t.Indexed) (ids : List PayloadId) :
    (ids.foldl JobTable.erase t).Indexed :=
  ids.foldlRecOn _ h fun _ ht id _ => ht.erase id

/-- To remove jobs that are in the table makes the table smaller by so many. -/
lemma Indexed.size_foldl_erase (h : t.Indexed) {ids : List PayloadId} (hnodup : ids.Nodup)
    (hmem : ∀ id ∈ ids, id ∈ t.order) :
    (ids.foldl JobTable.erase t).entries.size + ids.length = t.entries.size := by
  induction ids generalizing t with
  | nil => rfl
  | cons id ids ih =>
    obtain ⟨hid, hnodup⟩ := List.nodup_cons.1 hnodup
    obtain ⟨entry, hentry⟩ :=
      Assoc.exists_get?_iff.2 (h.order_eq ▸ hmem id List.mem_cons_self)
    have hrest : ∀ other ∈ ids, other ∈ (t.erase id).order := by
      intro other hother
      rw [h.erase_order, List.mem_filter]
      exact ⟨hmem other (List.mem_cons_of_mem _ hother),
        by simpa using ne_of_mem_of_not_mem hother hid⟩
    have hsize := ih (h.erase id) hnodup hrest
    have hsize' := h.size_erase hentry
    rw [List.foldl_cons, List.length_cons]
    omega

lemma foldl_erase_byParent (h : t.Indexed) (hparent : t.byParent.get? parent = none)
    (ids : List PayloadId) : (ids.foldl erase t).byParent.get? parent = none := by
  have hboth : (ids.foldl erase t).Indexed ∧ (ids.foldl erase t).byParent.get? parent = none := by
    refine ids.foldlRecOn (motive := fun t => t.Indexed ∧ t.byParent.get? parent = none) erase
      ⟨h, hparent⟩ ?_
    rintro t ⟨ht, hnone⟩ id -
    refine ⟨ht.erase id, Option.eq_none_iff_forall_ne_some.2 fun other hother => ?_⟩
    cases hnone.symm.trans ((ht.erase_byParent id).1 hother).1
  exact hboth.2

/-- The table with room for a job on a parent. -/
def withRoom (t : JobTable) (parent : Hash) : JobTable :=
  let t := (t.superseded? parent).toList.foldl erase t
  t.evicted.foldl erase t

/-- There is no job on the parent any more. -/
lemma Indexed.byParent_withRoom (h : t.Indexed) (parent : Hash) :
    (t.withRoom parent).byParent.get? parent = none := by
  refine foldl_erase_byParent (h.foldl_erase _) ?_ _
  unfold superseded?
  cases hparent : t.byParent.get? parent with
  | none => exact hparent
  | some id =>
    refine Option.eq_none_iff_forall_ne_some.2 fun other hother => ?_
    obtain ⟨hother, hne⟩ := (h.erase_byParent id).1 hother
    cases hparent.symm.trans hother
    exact hne rfl

/-- One more job fits into the table. -/
lemma Indexed.size_withRoom (h : t.Indexed) (parent : Hash) :
    (t.withRoom parent).entries.size < capacity := by
  unfold JobTable.withRoom
  dsimp only
  have h' := h.foldl_erase (t.superseded? parent).toList
  generalize (t.superseded? parent).toList.foldl JobTable.erase t = t' at h' ⊢
  have hlength : t'.order.length = t'.entries.size := by
    rw [h'.order_eq, Assoc.size_eq_length_keys]
  rw [h'.evicted_eq_take]
  have hnodup : (t'.order.take (t'.entries.size + 1 - capacity)).Nodup :=
    (h'.order_eq ▸ h'.nodup).sublist (List.take_sublist _ _)
  have hsize := h'.size_foldl_erase hnodup fun id hid => List.mem_of_mem_take hid
  rw [List.length_take, hlength] at hsize
  have hcapacity : 0 < capacity := by decide
  omega

end JobTable

/-! ## Ids -/

/-- A word is known by its bytes. -/
lemma BuildOrder.bigEndian_injective : Function.Injective bigEndian := by
  intro m n h
  simp only [bigEndian, List.cons.injEq, and_true, ← UInt8.toNat_inj, UInt64.toNat_toUInt8,
    UInt64.toNat_shiftRight, Nat.shiftRight_eq_div_pow, UInt64.reduceToNat, Nat.reduceMod,
    Nat.reducePow] at h
  have hm := m.toNat_lt
  have hn := n.toNat_lt
  refine UInt64.toNat_inj.1 ?_
  omega

namespace Coordinator

variable {c c' : Coordinator} {head : Option Hash} {id : PayloadId} {k : Nat} {j : Job}

/-- Two numbers with the same id differ by a multiple of the number of words. -/
lemma mod_eq_of_draw_eq {m n : Nat} (h : draw m = draw n) :
    (m + 1) % UInt64.size = (n + 1) % UInt64.size := by
  have hproduct : UInt64.ofNat (m + 1) * 0x9E3779B97F4A7C15 =
      UInt64.ofNat (n + 1) * 0x9E3779B97F4A7C15 :=
    BuildOrder.bigEndian_injective (congrArg Bytes.toList h)
  -- the factor is odd, so it has an inverse
  have hinverse : (0x9E3779B97F4A7C15 : UInt64) * 0xF1DE83E19937733D = 1 := by decide
  have hword : UInt64.ofNat (m + 1) = UInt64.ofNat (n + 1) := by
    have hback := congrArg (· * (0xF1DE83E19937733D : UInt64)) hproduct
    simpa only [UInt64.mul_assoc, hinverse, UInt64.mul_one] using hback
  simpa using congrArg UInt64.toNat hword

/-- The id that is drawn next is not in the table. -/
lemma get?_draw_nextFree (hsize : c.table.entries.size ≤ JobTable.capacity) :
    c.table.entries.get? (draw c.nextFree) = none := by
  unfold nextFree
  set candidates := (List.range (JobTable.capacity + 1)).map (c.drawn + ·) with hcandidates
  cases hfind : candidates.find? fun n => (c.table.entries.get? (draw n)).isNone with
  | some n =>
    have hfree := List.find?_some hfind
    exact Option.isNone_iff_eq_none.1 hfree
  | none =>
    -- else all the candidates are taken, and there are more of them than entries
    have htaken : candidates.map draw ⊆ c.table.entries.keys := by
      intro other hother
      obtain ⟨n, hn, rfl⟩ := List.mem_map.1 hother
      have htaken : c.table.entries.get? (draw n) ≠ none := by
        simpa using List.find?_eq_none.1 hfind n hn
      exact Assoc.exists_get?_iff.1 (Option.ne_none_iff_exists'.1 htaken)
    have hnodup : (candidates.map draw).Nodup := by
      rw [hcandidates, List.map_map]
      refine (List.nodup_map_iff_inj_on List.nodup_range).2 ?_
      intro i hi i' hi' heq
      have hmod := mod_eq_of_draw_eq heq
      have hi := List.mem_range.1 hi
      have hi' := List.mem_range.1 hi'
      simp only [JobTable.capacity] at hi hi'
      simp only [UInt64.size] at hmod
      omega
    have hlength := (List.subperm_of_subset hnodup htaken).length_le
    rw [Assoc.size_eq_length_keys] at hsize
    simp only [hcandidates, List.length_map, List.length_range] at hlength
    omega

/-! ## The invariant -/

/-- The table is in order, every entry leads to its job, and the jobs that are not in the table bear
the mark of cancellation. -/
structure Tracks (c : Coordinator) : Prop where
  indexed : c.table.Indexed
  size_le : c.table.entries.size ≤ JobTable.capacity
  job : ∀ id entry, c.table.entries.get? id = some entry →
    ∃ j, c.jobs[entry.job]? = some j ∧ j.id = id ∧ j.parent.hash = entry.parent
  cancelled : ∀ (k : Nat) (j : Job), c.jobs[k]? = some j →
    (j.cancelled = false ↔ k ∈ c.table.jobs)

/-- An id is looked up among the entries. -/
lemma exists_entry_of_lookup? (hid : c.lookup? id = some k) :
    ∃ entry, c.table.entries.get? id = some entry ∧ entry.job = k := by
  rw [lookup?] at hid
  split_ifs at hid
  exact Option.map_eq_some_iff.1 hid

/-- A coordinator that has started no job. -/
def Fresh (c : Coordinator) : Prop := c.jobs = [] ∧ c.table = .empty

lemma Fresh.tracks (h : c.Fresh) : c.Tracks where
  indexed := h.2 ▸ JobTable.indexed_empty
  size_le := by simp [h.2, JobTable.empty, Assoc.size, Assoc.empty]
  job id entry hentry := by simp [h.2, JobTable.empty] at hentry
  cancelled k j hj := by simp [h.1] at hj

namespace Tracks

/-- Nothing else in the coordinator matters. -/
lemma of_eq (h : c.Tracks) (htable : c'.table = c.table) (hjobs : c'.jobs = c.jobs) :
    c'.Tracks where
  indexed := htable ▸ h.indexed
  size_le := htable ▸ h.size_le
  job := by rw [htable, hjobs]; exact h.job
  cancelled := by rw [htable, hjobs]; exact h.cancelled

lemma lt_length (h : c.Tracks) (hk : k ∈ c.table.jobs) : k < c.jobs.length := by
  obtain ⟨id, entry, hentry, rfl⟩ := (JobTable.mem_jobs_iff h.indexed.nodup).1 hk
  obtain ⟨j, hj, -⟩ := h.job id entry hentry
  exact (List.getElem?_eq_some_iff.1 hj).1

/-! ### Removing jobs -/

lemma table_remove (c : Coordinator) (id : PayloadId) :
    (c.remove id).table = c.table.erase id := by
  unfold Coordinator.remove
  cases hentry : c.table.entries.get? id with
  | some entry => rfl
  | none => simp only [JobTable.erase, hentry]

lemma remove (h : c.Tracks) (id : PayloadId) : (c.remove id).Tracks := by
  have htable := table_remove c id
  unfold Coordinator.remove at htable ⊢
  cases hentry : c.table.entries.get? id with
  | none => exact h
  | some entry =>
    refine ⟨h.indexed.erase id, ?_, ?_, ?_⟩
    · have hsize := h.indexed.size_erase hentry
      have hle := h.size_le
      show (c.table.erase id).entries.size ≤ _
      omega
    · intro other entry' hother
      have hother : (c.table.erase id).entries.get? other = some entry' := hother
      rw [JobTable.erase_entries, Assoc.get?_erase] at hother
      split_ifs at hother
      obtain ⟨j, hj, hid, hparent⟩ := h.job other entry' hother
      refine ⟨if entry.job = entry'.job then { j with cancelled := true } else j, ?_, ?_, ?_⟩
      · show (c.jobs.modify entry.job _)[entry'.job]? = _
        rw [List.getElem?_modify, hj]
        split_ifs <;> rfl
      · split_ifs <;> exact hid
      · split_ifs <;> exact hparent
    · intro k j hj
      have hj : (c.jobs.modify entry.job fun j => { j with cancelled := true })[k]? = some j := hj
      show j.cancelled = false ↔ k ∈ (c.table.erase id).jobs
      rw [h.indexed.mem_jobs_erase hentry]
      rw [List.getElem?_modify, Option.map_eq_map, Option.map_eq_some_iff] at hj
      obtain ⟨j', hj', rfl⟩ := hj
      split_ifs with hk
      · simp [hk]
      · have hne : k ≠ entry.job := fun heq => hk heq.symm
        simpa [hne] using h.cancelled k j' hj'

lemma foldl_remove (h : c.Tracks) (ids : List PayloadId) : (ids.foldl Coordinator.remove c).Tracks :=
  ids.foldlRecOn _ h fun _ hc id _ => hc.remove id

lemma makeRoom (h : c.Tracks) (parent : Hash) : (c.makeRoom parent).2.Tracks :=
  (h.foldl_remove _).foldl_remove _

lemma table_makeRoom (c : Coordinator) (parent : Hash) :
    (c.makeRoom parent).2.table = c.table.withRoom parent := by
  have hfold (c : Coordinator) (ids : List PayloadId) :
      (ids.foldl Coordinator.remove c).table = ids.foldl JobTable.erase c.table := by
    induction ids generalizing c with
    | nil => rfl
    | cons id ids ih => rw [List.foldl_cons, List.foldl_cons, ih, table_remove]
  simp only [Coordinator.makeRoom, JobTable.withRoom, hfold]

lemma cancel (h : c.Tracks) (id : PayloadId) : (c.cancel id).2.Tracks := by
  unfold Coordinator.cancel
  split
  · exact h.remove id
  · exact h

/-! ### Starting jobs -/

lemma place (h : c.Tracks) {parent : Block} (hfree : c.table.entries.get? id = none)
    (hparent : c.table.byParent.get? parent.hash = none)
    (hsize : c.table.entries.size < JobTable.capacity) (a : PayloadAttributes) :
    (c.place id parent a).Tracks where
  indexed := h.indexed.insert hfree hparent fun k hk => h.lt_length hk
  size_le := by
    show (c.table.insert id ⟨c.jobs.length, parent.hash⟩).entries.size ≤ _
    rw [JobTable.size_insert_of_free hfree]
    omega
  job other entry hentry := by
    have hentry : (c.table.entries.insert id ⟨c.jobs.length, parent.hash⟩).get? other =
      some entry := hentry
    show ∃ j, (c.jobs ++ [_])[entry.job]? = some j ∧ _
    rw [Assoc.get?_insert] at hentry
    split_ifs at hentry with hother
    · cases hentry
      exact ⟨_, List.getElem?_concat_length, hother.symm, rfl⟩
    · obtain ⟨j, hj, hid⟩ := h.job other entry hentry
      exact ⟨j, by rw [List.getElem?_append_left (List.getElem?_eq_some_iff.1 hj).1, hj], hid⟩
  cancelled k j hj := by
    have hj : (c.jobs ++ [_])[k]? = some j := hj
    show _ ↔ k ∈ (c.table.insert id ⟨c.jobs.length, parent.hash⟩).jobs
    rw [JobTable.jobs_insert_of_free hfree, List.mem_append, List.mem_singleton]
    by_cases hk : k = c.jobs.length
    · subst hk
      rw [List.getElem?_concat_length] at hj
      cases hj
      simp
    · have hlt : k < c.jobs.length := by
        have hlength := (List.getElem?_eq_some_iff.1 hj).1
        rw [List.length_append, List.length_singleton] at hlength
        omega
      rw [List.getElem?_append_left hlt] at hj
      rw [h.cancelled k j hj, or_iff_left hk]

/-- A job may be started under any id that is free once there is room. -/
lemma startAs (h : c.Tracks) {parent : Block}
    (hfree : (c.makeRoom parent.hash).2.table.entries.get? id = none) (a : PayloadAttributes) :
    (c.startAs id parent a).after.Tracks := by
  unfold Coordinator.startAs
  dsimp only
  split_ifs
  · exact h
  · refine (h.makeRoom parent.hash).place hfree ?_ ?_ a
    · rw [table_makeRoom]
      exact h.indexed.byParent_withRoom parent.hash
    · rw [table_makeRoom]
      exact h.indexed.size_withRoom parent.hash

/-- So it may be under the one that the coordinator draws. -/
lemma start (h : c.Tracks) (parent : Block) (a : PayloadAttributes) :
    (c.start parent a).after.Tracks :=
  (h.startAs (get?_draw_nextFree (h.makeRoom parent.hash).size_le) a).of_eq rfl rfl

lemma startNowhere (h : c.Tracks) (parent : Block) : (c.startNowhere parent).2.2.Tracks := by
  unfold Coordinator.startNowhere
  split_ifs
  · exact h
  · exact (h.makeRoom parent.hash).of_eq rfl rfl

/-! ### Jobs at work -/

/-- Jobs that work keep their ids, their parents and their marks. -/
lemma works (h : c.Tracks) (hworks : Works head c c') : c'.Tracks where
  indexed := hworks.table ▸ h.indexed
  size_le := hworks.table ▸ h.size_le
  job id entry hentry := by
    rw [hworks.table] at hentry
    obtain ⟨j, hj, hid, hparent⟩ := h.job id entry hentry
    obtain ⟨j', hj', hevolves⟩ := hworks.evolves entry.job j hj
    have hterms := hevolves.terms_eq
    exact ⟨j', hj', (Job.id_eq_of_terms hterms).trans hid,
      (congrArg Block.hash (Job.parent_eq_of_terms hterms)).trans hparent⟩
  cancelled k j' hj' := by
    have hlt : k < c.jobs.length := hworks.length ▸ (List.getElem?_eq_some_iff.1 hj').1
    obtain ⟨j'', hj'', hevolves⟩ := hworks.evolves k c.jobs[k] (List.getElem?_eq_getElem hlt)
    cases hj'.symm.trans hj''
    rw [Job.cancelled_eq_of_terms hevolves.terms_eq, hworks.table]
    exact h.cancelled k _ (List.getElem?_eq_getElem hlt)

end Tracks

/-! ## Whatever happens -/

/-- What may happen to a coordinator, whichever ids its jobs get. -/
inductive Happens (c : Coordinator) : Coordinator → Prop where
  /-- A job is started under some free id. -/
  | startAs (id : PayloadId) (parent : Block) (a : PayloadAttributes)
      (hfree : (c.makeRoom parent.hash).2.table.entries.get? id = none) :
      Happens c (c.startAs id parent a).after
  /-- A job is started under an id that the coordinator draws, or anything else happens. -/
  | step {c' : Coordinator} (hstep : Step c c') : Happens c c'

lemma Step.tracks (hstep : Step c c') (h : c.Tracks) : c'.Tracks := by
  cases hstep with
  | start b a => exact h.start b a
  | startNowhere b => exact h.startNowhere b
  | cancel id => exact h.cancel id
  | retrieve head id => exact h.works (Moves.retrieve c head id).works
  | ask id => exact h.of_eq rfl rfl
  | join head fetch => exact h.works (Moves.join c head fetch).works
  | settle head => exact h.works (Moves.settle c head).works
  | runUntil head limit => exact h.works (Moves.runUntil c head limit).works
  | clearJournal => exact h.of_eq rfl rfl

theorem Happens.tracks (hhappens : Happens c c') (h : c.Tracks) : c'.Tracks := by
  cases hhappens with
  | startAs id parent a hfree => exact h.startAs hfree a
  | step hstep => exact hstep.tracks h

theorem tracks_of_happens (hrun : Relation.ReflTransGen Happens c c') (h : c.Tracks) :
    c'.Tracks := by
  induction hrun with
  | refl => exact h
  | tail _ hhappens ih => exact hhappens.tracks ih

/-! ## What callers can rely on -/

/-- The indexes of the table agree, and the marks on the jobs say which jobs are in it. -/
structure Consistent (c : Coordinator) : Prop where
  /-- No id is twice in the order. -/
  nodup_order : c.table.order.Nodup
  /-- The ids in the order are those with an entry. -/
  mem_order_iff : ∀ id, id ∈ c.table.order ↔ ∃ entry, c.table.entries.get? id = some entry
  /-- They stand in the order in which their jobs were started. -/
  started_in_order : c.table.order.Pairwise fun earlier later =>
    ∀ entry entry', c.table.entries.get? earlier = some entry →
      c.table.entries.get? later = some entry' → entry.job < entry'.job
  /-- There are as many entries as ids, and not too many. -/
  size_eq : c.table.entries.size = c.table.order.length
  size_le : c.table.entries.size ≤ JobTable.capacity
  /-- The index by parent holds the entries and nothing else. -/
  byParent_iff : ∀ parent id, c.table.byParent.get? parent = some id ↔
    ∃ entry, c.table.entries.get? id = some entry ∧ entry.parent = parent
  /-- An entry names a job that was started under its id and on its parent. -/
  job_of_entry : ∀ id entry, c.table.entries.get? id = some entry →
    ∃ j, c.jobs[entry.job]? = some j ∧ j.id = id ∧ j.parent.hash = entry.parent
  /-- Of all jobs that were ever started, those in the table and no others are not cancelled. -/
  cancelled_iff : ∀ (k : Nat) (j : Job), c.jobs[k]? = some j →
    (j.cancelled = false ↔ ∃ id entry, c.table.entries.get? id = some entry ∧ entry.job = k)

lemma Tracks.consistent (h : c.Tracks) : c.Consistent where
  nodup_order := h.indexed.order_eq ▸ h.indexed.nodup
  mem_order_iff id := by rw [h.indexed.order_eq, Assoc.exists_get?_iff]
  started_in_order := by
    have hincreasing := h.indexed.increasing
    rw [JobTable.jobs, Assoc.values, List.pairwise_map, List.pairwise_map] at hincreasing
    rw [h.indexed.order_eq, Assoc.keys, List.pairwise_map]
    refine hincreasing.imp_of_mem fun {p q} hp hq hlt entry entry' hentry hentry' => ?_
    rw [(Assoc.get?_eq_some_iff h.indexed.nodup).2 hp] at hentry
    rw [(Assoc.get?_eq_some_iff h.indexed.nodup).2 hq] at hentry'
    cases hentry
    cases hentry'
    exact hlt
  size_eq := by rw [h.indexed.order_eq, Assoc.size_eq_length_keys]
  size_le := h.size_le
  byParent_iff := h.indexed.byParent
  job_of_entry := h.job
  cancelled_iff k j hj := by rw [h.cancelled k j hj, JobTable.mem_jobs_iff h.indexed.nodup]

/-- In every state of a coordinator the indexes of the table agree, and the marks on the jobs say
which jobs are in it. -/
theorem consistent_of_fresh (hfresh : c.Fresh) (hrun : Relation.ReflTransGen Happens c c') :
    c'.Consistent :=
  (tracks_of_happens hrun hfresh.tracks).consistent

/-- A coordinator without jobs. -/
def unused : Coordinator := { timing := {}, script := [] }

/-- A block to build on. -/
def baseBlock : Block := ⟨.zero 32, 0, .zero 32, 0⟩

/-- Attributes for a block on top of it. -/
def nextAttributes : PayloadAttributes := ⟨12, .zero 32, .zero 20, none, none⟩

/-- A payload as it may be built for them. -/
def firstPayload : BuiltPayload :=
  ⟨.zero 32, .zero 20, .zero 32, 1, 12, .zero 32, [], none, none, 0, 0⟩

/-- The coordinator with one job, under an id of zeros. -/
def oneJob : Coordinator := (unused.startAs (.zero 8) baseBlock nextAttributes).after

/-- The coordinator with another job on the same block, which supersedes the first one. -/
def supersedingJob : Coordinator := (oneJob.start baseBlock nextAttributes).after

lemma happens_oneJob : Happens unused oneJob := .startAs _ _ _ rfl

lemma happens_supersedingJob : Happens oneJob supersedingJob := .step (.start _ _)

theorem consistent_of_fresh_supersedingJob :
    unused.Fresh ∧ Relation.ReflTransGen Happens unused supersedingJob ∧
      supersedingJob.Consistent :=
  have hfresh : unused.Fresh := ⟨rfl, rfl⟩
  have hrun := Relation.ReflTransGen.tail (.single happens_oneJob) happens_supersedingJob
  ⟨hfresh, hrun, consistent_of_fresh hfresh hrun⟩

end Coordinator

end ChainHead
