import ChainHead.Proofs.Build.Bookkeeping

/-!
# Which job goes for a new one

A job that is started displaces the one on the same parent.  If there is none, it displaces the
earliest job of a full table, and otherwise it displaces none (`JobTable.Displaces`).  Never does
more than one job go: where the parent has a job, there is room in the table once that job is gone,
so nothing is evicted (`JobTable.Indexed.exists_displaces`).

Then the new job is put behind the others, under an id that none of them has, and they stay as they
are (`Coordinator.Enlists`).  `Coordinator.enlists_of_happens` says so of every state that a
coordinator can come to.
-/

namespace ChainHead

/-! ## The job that goes -/

namespace JobTable

variable {t : JobTable} {id : PayloadId} {parent : Hash} {gone gone' : Option PayloadId}

/-- There is no job on the parent. -/
def Vacant (t : JobTable) (parent : Hash) : Prop :=
  ∀ id entry, t.entries.get? id = some entry → entry.parent ≠ parent

/-- The job that has to go for one on the parent, if any has to.  Jobs are numbered in the order in
which they were started. -/
inductive Displaces (t : JobTable) (parent : Hash) : Option PayloadId → Prop where
  /-- The job on the parent goes. -/
  | superseded {id : PayloadId} {entry : JobEntry} (hentry : t.entries.get? id = some entry)
      (hparent : entry.parent = parent) : Displaces t parent (some id)
  /-- There is none, and the earliest job of a full table goes. -/
  | evicted {id : PayloadId} {entry : JobEntry} (hvacant : t.Vacant parent)
      (hfull : t.entries.size = capacity) (hentry : t.entries.get? id = some entry)
      (hearliest : ∀ other entry', t.entries.get? other = some entry' → entry.job ≤ entry'.job) :
      Displaces t parent (some id)
  /-- There is none, and there is room. -/
  | nothing (hvacant : t.Vacant parent) (hroom : t.entries.size < capacity) :
      Displaces t parent none

/-- What goes is in the table. -/
lemma Displaces.exists_entry (hgone : t.Displaces parent gone) :
    ∀ id ∈ gone, ∃ entry, t.entries.get? id = some entry := by
  rintro id rfl
  cases hgone with
  | superseded hentry _ => exact ⟨_, hentry⟩
  | evicted _ _ hentry _ => exact ⟨_, hentry⟩

/-- One job at most has to go. -/
theorem Displaces.unique (h : t.Indexed) (hgone : t.Displaces parent gone)
    (hgone' : t.Displaces parent gone') : gone = gone' := by
  cases hgone with
  | superseded hentry hparent =>
    cases hgone' with
    | superseded hentry' hparent' =>
      have hindex := (h.byParent parent _).2 ⟨_, hentry, hparent⟩
      exact hindex.symm.trans ((h.byParent parent _).2 ⟨_, hentry', hparent'⟩)
    | evicted hvacant _ _ _ => exact absurd hparent (hvacant _ _ hentry)
    | nothing hvacant _ => exact absurd hparent (hvacant _ _ hentry)
  | evicted hvacant hfull hentry hearliest =>
    cases hgone' with
    | superseded hentry' hparent' => exact absurd hparent' (hvacant _ _ hentry')
    | evicted _ _ hentry' hearliest' =>
      have hjob := Nat.le_antisymm (hearliest _ _ hentry') (hearliest' _ _ hentry)
      rw [h.id_unique hentry hentry' hjob]
    | nothing _ hroom => exact absurd hfull (Nat.ne_of_lt hroom)
  | nothing hvacant hroom =>
    cases hgone' with
    | superseded hentry' hparent' => exact absurd hparent' (hvacant _ _ hentry')
    | evicted _ hfull _ _ => exact absurd hfull (Nat.ne_of_lt hroom)
    | nothing _ _ => rfl

/-- The jobs that are removed to make room for one on the parent. -/
def removals (t : JobTable) (parent : Hash) : List PayloadId :=
  let superseded := (t.superseded? parent).toList
  superseded ++ (superseded.foldl erase t).evicted

lemma Indexed.vacant (h : t.Indexed) (hparent : t.byParent.get? parent = none) :
    t.Vacant parent := by
  intro id entry hentry heq
  cases hparent.symm.trans ((h.byParent parent id).2 ⟨entry, hentry, heq⟩)

/-- The job at the front of the order is the earliest. -/
lemma Indexed.earliest {rest : List PayloadId} (h : t.Indexed) (horder : t.order = id :: rest) :
    ∃ entry, t.entries.get? id = some entry ∧
      ∀ other entry', t.entries.get? other = some entry' → entry.job ≤ entry'.job := by
  have hkeys : t.entries.entries.map (·.1) = id :: rest := h.order_eq.symm.trans horder
  obtain ⟨⟨first, entry⟩, pairs, hentries, rfl, -⟩ := List.map_eq_cons_iff.1 hkeys
  have hjobs : t.jobs = entry.job :: pairs.map (·.2.job) := by
    rw [jobs, Assoc.values, hentries]
    simp
  have hincreasing := h.increasing
  rw [hjobs] at hincreasing
  refine ⟨entry, (Assoc.get?_eq_some_iff h.nodup).2 ?_, fun other entry' hother => ?_⟩
  · rw [hentries]
    exact List.mem_cons_self
  · have hmem := (Assoc.get?_eq_some_iff h.nodup).1 hother
    rw [hentries] at hmem
    obtain heq | hmem := List.mem_cons.1 hmem
    · cases heq
      exact Nat.le_refl _
    · exact Nat.le_of_lt (List.rel_of_pairwise_cons hincreasing (List.mem_map_of_mem hmem))

/-- What is removed is the job that has to go. -/
theorem Indexed.exists_displaces (h : t.Indexed) (hsize : t.entries.size ≤ capacity)
    (parent : Hash) : ∃ gone, t.Displaces parent gone ∧ t.removals parent = gone.toList := by
  unfold removals superseded?
  cases hparent : t.byParent.get? parent with
  | some id =>
    obtain ⟨entry, hentry, heq⟩ := (h.byParent parent id).1 hparent
    refine ⟨some id, .superseded hentry heq, ?_⟩
    have hroom : (t.erase id).entries.size < capacity := by
      have hsize' := h.size_erase hentry
      omega
    show [id] ++ (t.erase id).evicted = [id]
    rw [evicted_of_lt hroom, List.append_nil]
  | none =>
    have hvacant := h.vacant hparent
    show ∃ gone, t.Displaces parent gone ∧ t.evicted = gone.toList
    obtain hroom | hfull := Nat.lt_or_eq_of_le hsize
    · exact ⟨none, .nothing hvacant hroom, evicted_of_lt hroom⟩
    · cases horder : t.order with
      | nil =>
        have hempty : t.entries.size = 0 := by
          rw [Assoc.size_eq_length_keys, ← h.order_eq, horder, List.length_nil]
        cases hempty.symm.trans hfull
      | cons id rest =>
        obtain ⟨entry, hentry, hearliest⟩ := h.earliest horder
        refine ⟨some id, .evicted hvacant hfull hentry hearliest, ?_⟩
        rw [h.evicted_eq_take, hfull, horder]
        rfl

lemma Indexed.displaces_of_removals (h : t.Indexed) (hsize : t.entries.size ≤ capacity)
    (hremovals : t.removals parent = gone.toList) : t.Displaces parent gone := by
  obtain ⟨gone', hgone', heq⟩ := h.exists_displaces hsize parent
  have hsame := congrArg List.head? (heq.symm.trans hremovals)
  rw [Option.head?_toList, Option.head?_toList] at hsame
  exact hsame ▸ hgone'

end JobTable

namespace Coordinator

variable {c fresh : Coordinator} {id other : PayloadId} {entry : JobEntry}
  {gone : Option PayloadId} {parent : Block} {a : PayloadAttributes} {k : Nat}

/-! ## What is left -/

/-- The coordinator without the job that goes. -/
def withdraw (c : Coordinator) (gone : Option PayloadId) : Coordinator := gone.toList.foldl remove c

lemma makeRoom_eq_foldl (c : Coordinator) (parent : Hash) :
    (c.makeRoom parent).2 = (c.table.removals parent).foldl remove c := by
  unfold makeRoom JobTable.removals
  rw [List.foldl_append]
  cases c.table.superseded? parent with
  | none => rfl
  | some id =>
    show (c.remove id).table.evicted.foldl remove (c.remove id) = _
    rw [Tracks.table_remove]
    rfl

/-- To make room is to remove the job that has to go. -/
lemma Tracks.makeRoom_eq (h : c.Tracks) {parent : Hash} (hgone : c.table.Displaces parent gone) :
    (c.makeRoom parent).2 = c.withdraw gone := by
  obtain ⟨gone', hgone', heq⟩ := h.indexed.exists_displaces h.size_le parent
  rw [makeRoom_eq_foldl, heq, hgone'.unique h.indexed hgone]
  rfl

lemma withdraw_eq_with (c : Coordinator) (gone : Option PayloadId) :
    ∃ jobs table, c.withdraw gone = { c with jobs, table } ∧ jobs.length = c.jobs.length :=
  c.foldl_remove_eq_with gone.toList

lemma length_withdraw (c : Coordinator) (gone : Option PayloadId) :
    (c.withdraw gone).jobs.length = c.jobs.length := by
  obtain ⟨jobs, table, hwith, hlength⟩ := c.withdraw_eq_with gone
  rw [hwith, hlength]

lemma get?_withdraw (c : Coordinator) (gone : Option PayloadId) (other : PayloadId) :
    (c.withdraw gone).table.entries.get? other =
      if gone = some other then none else c.table.entries.get? other := by
  cases gone with
  | none => rfl
  | some id =>
    show (c.remove id).table.entries.get? other = _
    rw [Tracks.table_remove, JobTable.erase_entries, Assoc.get?_erase]
    simp only [Option.some.injEq, eq_comm]

lemma Tracks.order_withdraw (h : c.Tracks) (gone : Option PayloadId) :
    (c.withdraw gone).table.order = c.table.order.filter (gone ≠ some ·) := by
  cases gone with
  | none => simp [withdraw]
  | some id =>
    show (c.remove id).table.order = _
    rw [Tracks.table_remove, h.indexed.erase_order]
    simp only [ne_eq, Option.some.injEq, eq_comm]

/-- The job that goes is told so. -/
lemma getElem?_withdraw_self (hentry : c.table.entries.get? id = some entry) :
    (c.withdraw (some id)).jobs[entry.job]? =
      c.jobs[entry.job]?.map fun j => { j with cancelled := true } := by
  show (c.remove id).jobs[entry.job]? = _
  simp only [remove, hentry]
  show (c.jobs.modify entry.job _)[entry.job]? = _
  rw [List.getElem?_modify_eq]
  rfl

/-- The others stay as they are. -/
lemma getElem?_withdraw_of_ne
    (hne : ∀ id ∈ gone, ∀ entry, c.table.entries.get? id = some entry → entry.job ≠ k) :
    (c.withdraw gone).jobs[k]? = c.jobs[k]? := by
  cases gone with
  | none => rfl
  | some id =>
    show (c.remove id).jobs[k]? = _
    unfold remove
    cases hentry : c.table.entries.get? id with
    | none => rfl
    | some entry => exact List.getElem?_modify_ne _ _ (hne id rfl entry hentry)

/-! ## The new job -/

/-- A job was started under an id, one job at most went for it, and all others are as they were. -/
structure Enlists (c : Coordinator) (gone : Option PayloadId) (id : PayloadId) (parent : Block)
    (a : PayloadAttributes) (s : Started) : Prop where
  /-- The caller gets the id. -/
  result : s.result = .ok id
  /-- No job that is left has it. -/
  free : ∀ other entry, c.table.entries.get? other = some entry → gone ≠ some other → other ≠ id
  /-- One entry is new, and one at most is gone. -/
  entries : ∀ other, s.after.table.entries.get? other =
    if other = id then some ⟨c.jobs.length, parent.hash⟩
    else if gone = some other then none else c.table.entries.get? other
  /-- The new job stands behind the others, and they stand as they stood. -/
  order : s.after.table.order = c.table.order.filter (gone ≠ some ·) ++ [id]
  /-- It is the current job on its parent. -/
  current : s.after.currentFor? parent.hash = some id
  /-- It is the only job that is new, and it is at its beginning. -/
  length_jobs : s.after.jobs.length = c.jobs.length + 1
  new_job : s.after.jobs[c.jobs.length]? =
    some { id, parent, attributes := a, deadline := c.now + c.timing.deadline }
  /-- A job that is left in the table keeps its entry and all that it has, and it stays the current
  job on its parent. -/
  retained : ∀ other entry, c.table.entries.get? other = some entry → gone ≠ some other →
    s.after.table.entries.get? other = some entry ∧
      s.after.currentFor? entry.parent = some other ∧
        ∃ j, c.jobs[entry.job]? = some j ∧ s.after.jobs[entry.job]? = some j
  /-- The job that is gone is told so, and nothing else about it changes. -/
  displaced : ∀ other ∈ gone, ∃ entry j, c.table.entries.get? other = some entry ∧
    c.jobs[entry.job]? = some j ∧ s.after.jobs[entry.job]? = some { j with cancelled := true }
  /-- Jobs that were not in the table stay as they were. -/
  past : ∀ k < c.jobs.length, k ∉ c.table.jobs → s.after.jobs[k]? = c.jobs[k]?

lemma currentFor?_of_entry (h : c.Tracks) (hpoisoned : c.poisoned = false)
    (hentry : c.table.entries.get? id = some entry) : c.currentFor? entry.parent = some id := by
  rw [currentFor?, hpoisoned, if_neg Bool.false_ne_true]
  exact (h.indexed.byParent _ _).2 ⟨entry, hentry, rfl⟩

/-- The new job has the only entry that was not there before. -/
lemma get?_withdraw_place (c : Coordinator) (gone : Option PayloadId) (id other : PayloadId)
    (parent : Block) (a : PayloadAttributes) :
    ((c.withdraw gone).place id parent a).table.entries.get? other =
      if other = id then some ⟨c.jobs.length, parent.hash⟩
      else if gone = some other then none else c.table.entries.get? other := by
  show ((c.withdraw gone).table.entries.insert id ⟨_, parent.hash⟩).get? other = _
  rw [Assoc.get?_insert, get?_withdraw, length_withdraw]

/-- The jobs that were started before are not touched when the new one is put behind them. -/
lemma getElem?_withdraw_place (hk : k < c.jobs.length) :
    ((c.withdraw gone).place id parent a).jobs[k]? = (c.withdraw gone).jobs[k]? :=
  List.getElem?_append_left ((c.length_withdraw gone).symm ▸ hk)

lemma ne_of_free (hfree : c.table.entries.get? id = none ∨ gone = some id)
    (hentry : c.table.entries.get? other = some entry) (hne : gone ≠ some other) : other ≠ id := by
  rintro rfl
  obtain hnone | heq := hfree
  · cases hnone.symm.trans hentry
  · exact hne heq

/-- A new job behind the jobs that are left. -/
lemma Tracks.enlists_place (h : c.Tracks)
    (hgone : ∀ other ∈ gone, ∃ entry, c.table.entries.get? other = some entry)
    (hfree : c.table.entries.get? id = none ∨ gone = some id)
    (hplace : ((c.withdraw gone).place id parent a).Tracks)
    (hpoisoned : ((c.withdraw gone).place id parent a).poisoned = false)
    (notices : List Log.Notice) :
    c.Enlists gone id parent a ⟨.ok id, notices, (c.withdraw gone).place id parent a⟩ where
  result := rfl
  free _ _ := ne_of_free hfree
  entries other := c.get?_withdraw_place gone id other parent a
  order := by
    show (c.withdraw gone).table.order ++ [id] = _
    rw [h.order_withdraw]
  current :=
    currentFor?_of_entry hplace hpoisoned
      ((c.get?_withdraw_place gone id id parent a).trans (if_pos rfl))
  length_jobs := by
    show ((c.withdraw gone).jobs ++ [_]).length = _
    rw [List.length_append, List.length_singleton, length_withdraw]
  new_job := by
    obtain ⟨jobs, table, hwith, hlength⟩ := c.withdraw_eq_with gone
    rw [hwith]
    show (jobs ++ [_])[c.jobs.length]? = _
    rw [← hlength]
    exact List.getElem?_concat_length
  retained other entry hentry hne := by
    have hkept : ((c.withdraw gone).place id parent a).table.entries.get? other = some entry := by
      rw [get?_withdraw_place, if_neg (ne_of_free hfree hentry hne), if_neg hne, hentry]
    obtain ⟨j, hj, -⟩ := h.job other entry hentry
    refine ⟨hkept, currentFor?_of_entry hplace hpoisoned hkept, j, hj, ?_⟩
    show ((c.withdraw gone).place id parent a).jobs[entry.job]? = _
    rw [getElem?_withdraw_place (List.getElem?_eq_some_iff.1 hj).1, getElem?_withdraw_of_ne, hj]
    -- the job that goes has another number, as it has another id
    rintro first rfl entry' hentry' hjob
    exact hne (congrArg some (h.indexed.id_unique hentry' hentry hjob))
  displaced := by
    rintro other rfl
    obtain ⟨entry, hentry⟩ := hgone other rfl
    obtain ⟨j, hj, -⟩ := h.job other entry hentry
    refine ⟨entry, j, hentry, hj, ?_⟩
    show ((c.withdraw _).place id parent a).jobs[entry.job]? = _
    rw [getElem?_withdraw_place (List.getElem?_eq_some_iff.1 hj).1, getElem?_withdraw_self hentry,
      hj]
    rfl
  past k hk hpast := by
    show ((c.withdraw gone).place id parent a).jobs[k]? = _
    rw [getElem?_withdraw_place hk, getElem?_withdraw_of_ne]
    rintro other - entry hentry rfl
    exact hpast ((JobTable.mem_jobs_iff h.indexed.nodup).2 ⟨other, entry, hentry, rfl⟩)

lemma get?_withdraw_eq_none_iff :
    (c.withdraw gone).table.entries.get? id = none ↔
      c.table.entries.get? id = none ∨ gone = some id := by
  rw [get?_withdraw]
  split_ifs with hgone <;> simp [hgone]

/-- A job may be started under every id that no job has, and under that of the job that goes. -/
theorem Tracks.enlists_startAs (h : c.Tracks) (hpoisoned : c.poisoned = false)
    (hgone : c.table.Displaces parent.hash gone)
    (hfree : c.table.entries.get? id = none ∨ gone = some id) (a : PayloadAttributes) :
    c.Enlists gone id parent a (c.startAs id parent a) := by
  have hroom := h.makeRoom_eq hgone
  have hstart : c.startAs id parent a =
      ⟨.ok id, (c.makeRoom parent.hash).1 ++ [.started id parent.hash],
        (c.withdraw gone).place id parent a⟩ := by
    rw [Coordinator.startAs, hpoisoned, if_neg Bool.false_ne_true, ← hroom]
  have htracks := h.startAs (hroom ▸ get?_withdraw_eq_none_iff.2 hfree) a
  obtain ⟨jobs, table, hwith, -⟩ := c.withdraw_eq_with gone
  have hpoisoned' : ((c.withdraw gone).place id parent a).poisoned = false := by
    rw [hwith]
    exact hpoisoned
  rw [hstart] at htracks ⊢
  exact h.enlists_place hgone.exists_entry hfree htracks hpoisoned' _

/-- The coordinator draws such an id itself. -/
theorem Tracks.enlists_start (h : c.Tracks) (hpoisoned : c.poisoned = false)
    (hgone : c.table.Displaces parent.hash gone) (a : PayloadAttributes) :
    ∃ id, c.Enlists gone id parent a (c.start parent a) := by
  have hfree := get?_draw_nextFree (h.makeRoom parent.hash).size_le
  rw [h.makeRoom_eq hgone] at hfree
  have henlists := h.enlists_startAs hpoisoned hgone (get?_withdraw_eq_none_iff.1 hfree) a
  rw [← h.makeRoom_eq hgone] at henlists
  obtain ⟨hresult, hids, hentries, horder, hcurrent, hlength, hnew, hretained, hdisplaced, hpast⟩ :=
    henlists
  exact ⟨_, hresult, hids, hentries, horder, hcurrent, hlength, hnew, hretained, hdisplaced, hpast⟩

/-- In every state of a coordinator it is settled which job has to go for a new one, if any has to.
A call to start the new job removes that one and no other, adds the new job under an id that no job
has that is left, and leaves all others as they are.  Only where a call has stopped with the table
in its hands, calls are refused from then on, and nothing is changed. -/
theorem enlists_of_happens (hfresh : fresh.Fresh)
    (hrun : Relation.ReflTransGen Happens fresh c) (parent : Block) (a : PayloadAttributes) :
    (∃! gone, c.table.Displaces parent.hash gone) ∧
      (c.poisoned = false → ∀ gone, c.table.Displaces parent.hash gone →
        (∀ id, c.table.entries.get? id = none ∨ gone = some id →
          c.Enlists gone id parent a (c.startAs id parent a)) ∧
        ∃ id, c.Enlists gone id parent a (c.start parent a)) ∧
      (c.poisoned = true → ∀ id, c.startAs id parent a = ⟨.error .lockPoisoned, [], c⟩) := by
  have h := tracks_of_happens hrun hfresh.tracks
  refine ⟨?_, fun hpoisoned gone hgone => ⟨fun id hfree => ?_, ?_⟩, fun hpoisoned id => ?_⟩
  · obtain ⟨gone, hgone, -⟩ := h.indexed.exists_displaces h.size_le parent.hash
    exact ⟨gone, hgone, fun gone' hgone' => hgone'.unique h.indexed hgone⟩
  · exact h.enlists_startAs hpoisoned hgone hfree a
  · exact h.enlists_start hpoisoned hgone a
  · rw [startAs, if_pos hpoisoned]

/-! ## A full table -/

/-- The block whose hash begins with a byte. -/
def numberedBlock (byte : Nat) : Block :=
  ⟨⟨UInt8.ofNat byte :: List.replicate 31 0, by simp⟩, 0, .zero 32, 0⟩

/-- The coordinator with one job on each of so many blocks. -/
def crowd (n : Nat) : Coordinator :=
  (List.range n).foldl (fun c k => (c.start (numberedBlock k) nextAttributes).after) unused

lemma happens_crowd (n : Nat) : Relation.ReflTransGen Happens unused (crowd n) := by
  induction n with
  | zero => exact .refl
  | succ n ih =>
    have hsucc : crowd (n + 1) = ((crowd n).start (numberedBlock n) nextAttributes).after := by
      rw [crowd, List.range_succ, List.foldl_append]
      rfl
    rw [hsucc]
    exact ih.tail (.step (.start _ _))

/-- The coordinator with a full table. -/
def fullHouse : Coordinator := crowd JobTable.capacity

/-- A job on another block displaces the earliest one, and a job on a block that has one displaces
that one only. -/
theorem enlists_of_happens_fullHouse :
    unused.Fresh ∧ Relation.ReflTransGen Happens unused fullHouse ∧ fullHouse.poisoned = false ∧
      (∃ id, fullHouse.Enlists (some (draw 0)) id (numberedBlock 32) nextAttributes
        (fullHouse.start (numberedBlock 32) nextAttributes)) ∧
      ∃ id, fullHouse.Enlists (some (draw 5)) id (numberedBlock 5) nextAttributes
        (fullHouse.start (numberedBlock 5) nextAttributes) := by
  have hfresh : unused.Fresh := ⟨rfl, rfl⟩
  have hrun : Relation.ReflTransGen Happens unused fullHouse := happens_crowd _
  have h := tracks_of_happens hrun hfresh.tracks
  obtain ⟨hpoisoned, hearliest, hsame⟩ : fullHouse.poisoned = false ∧
      fullHouse.table.removals (numberedBlock 32).hash = [draw 0] ∧
      fullHouse.table.removals (numberedBlock 5).hash = [draw 5] := by
    decide +kernel
  obtain ⟨-, hother, -⟩ := enlists_of_happens hfresh hrun (numberedBlock 32) nextAttributes
  obtain ⟨-, hagain, -⟩ := enlists_of_happens hfresh hrun (numberedBlock 5) nextAttributes
  exact ⟨hfresh, hrun, hpoisoned,
    (hother hpoisoned (some (draw 0)) (h.indexed.displaces_of_removals h.size_le hearliest)).2,
    (hagain hpoisoned (some (draw 5)) (h.indexed.displaces_of_removals h.size_le hsame)).2⟩

end Coordinator

end ChainHead
