import ChainHead.Proofs.Build.Bookkeeping
import ChainHead.Proofs.Build.Provenance

/-!
# Whoever asks for a payload gets that of the right job

Any number of jobs work side by side, and others are started, cancelled and evicted between any two
of their steps.  No event at one bench matters to the others, so each job keeps its commission in
every run of a workshop, and an id leads to the job that was started under it last
(`Workshop.Orderly`).

A request stays with the job that had the id when it was made (`Workshop.Concerns`).  So whoever
asks under an id that is in the table is given the last payload of that job, and none only if the
job has ended without one (`Workshop.retrieve_serves`).
-/

namespace ChainHead

/-! ## The table among jobs at work -/

lemma JobTable.get?_of_foldl_erase {t : JobTable} {ids : List PayloadId} {id : PayloadId}
    {entry : JobEntry} (h : (ids.foldl JobTable.erase t).entries.get? id = some entry) :
    t.entries.get? id = some entry := by
  induction ids generalizing t with
  | nil => exact h
  | cons other ids ih =>
    have h := ih h
    rw [JobTable.erase_entries, Assoc.get?_erase] at h
    split_ifs at h
    exact h

namespace Coordinator

variable {c : Coordinator} {k : Nat}

/-- What a job does while it works is of no account to the table. -/
lemma Tracks.modifyJob (h : c.Tracks) {j : Job} (hj : c.jobs[k]? = some j) {f : Job → Job}
    (hid : (f j).id = j.id) (hparent : (f j).parent = j.parent)
    (hcancelled : (f j).cancelled = j.cancelled) : (c.modifyJob k f).Tracks where
  indexed := h.indexed
  size_le := h.size_le
  job id entry hentry := by
    obtain ⟨j', hj', hid', hparent'⟩ := h.job id entry hentry
    show ∃ j, (c.jobs.modify k f)[entry.job]? = some j ∧ _
    rw [List.getElem?_modify, hj']
    by_cases hk : k = entry.job
    · subst hk
      cases hj.symm.trans hj'
      exact ⟨f j, by simp, hid.trans hid', (congrArg Block.hash hparent).trans hparent'⟩
    · exact ⟨j', by simp [hk], hid', hparent'⟩
  cancelled i j' hj' := by
    have hj' : (c.jobs.modify k f)[i]? = some j' := hj'
    show _ ↔ i ∈ c.table.jobs
    rw [List.getElem?_modify, Option.map_eq_map, Option.map_eq_some_iff] at hj'
    obtain ⟨j'', hj'', rfl⟩ := hj'
    by_cases hk : k = i
    · subst hk
      cases hj.symm.trans hj''
      rw [if_pos rfl, hcancelled]
      exact h.cancelled k j hj
    · rw [if_neg hk]
      exact h.cancelled i j'' hj''

lemma get?_of_makeRoom {parent : Hash} {id : PayloadId} {entry : JobEntry}
    (h : (c.makeRoom parent).2.table.entries.get? id = some entry) :
    c.table.entries.get? id = some entry := by
  rw [Tracks.table_makeRoom] at h
  exact JobTable.get?_of_foldl_erase (JobTable.get?_of_foldl_erase h)

end Coordinator

/-! ## All benches -/

namespace Workshop

variable {w : Workshop} {c : Coordinator} {id : PayloadId} {k : Nat}

/-- A workshop in which no job was started and no payload was asked for. -/
structure Fresh (w : Workshop) : Prop where
  coordinator : w.coordinator.Fresh
  unpoisoned : w.coordinator.poisoned = false
  fetches : w.coordinator.fetches = []
  benches : w.benches = []
  commissions : w.commissions = []

/-- Every job has a bench and a commission that it keeps, and an id in the table leads to the job
that was last started under it. -/
structure Orderly (w : Workshop) : Prop where
  tracks : w.coordinator.Tracks
  unpoisoned : w.coordinator.poisoned = false
  length_benches : w.benches.length = w.coordinator.jobs.length
  length_commissions : w.commissions.length = w.coordinator.jobs.length
  keeps : ∀ (k : Nat) (o : Commission) (j : Job) (b : Bench), w.commissions[k]? = some o →
    w.coordinator.jobs[k]? = some j → w.benches[k]? = some b → b.Keeps o j
  latest : ∀ id entry, w.coordinator.table.entries.get? id = some entry →
    ∀ (k : Nat) (o : Commission), w.commissions[k]? = some o → o.id = id → k ≤ entry.job

lemma Fresh.orderly (h : w.Fresh) : w.Orderly where
  tracks := h.coordinator.tracks
  unpoisoned := h.unpoisoned
  length_benches := by rw [h.benches, h.coordinator.1]; rfl
  length_commissions := by rw [h.commissions, h.coordinator.1]; rfl
  keeps k o j b ho := by simp [h.commissions] at ho
  latest id entry hentry k o ho := by simp [h.commissions] at ho

/-! ### Requests -/

lemma requested_cases (c : Coordinator) (id : PayloadId) :
    ∃ fetches, requested c id = { c with fetches } ∨
      ∃ job, requested c id = { c.resolve job with fetches } := by
  unfold requested
  split
  next job _ => exact ⟨_, .inr ⟨job, rfl⟩⟩
  next => exact ⟨_, .inl rfl⟩

lemma looked_cases (c : Coordinator) (fetch : Nat) :
    ∃ fetches, looked c fetch = { c with fetches } ∨
      ∃ job, looked c fetch = { c.resolve job with fetches } := by
  unfold looked
  split
  next f _ =>
    obtain hsame | ⟨id, job, -, hresolve⟩ := c.serve_cases f
    · exact ⟨_, .inl (by rw [hsame])⟩
    · exact ⟨_, .inr ⟨job, by rw [hresolve]⟩⟩
  next => exact ⟨_, .inl rfl⟩

namespace Orderly

/-- A call that starts no job sets flags, and it may take jobs off the table. -/
lemma withCoordinator (h : w.Orderly) (htracks : c.Tracks) (hpoisoned : c.poisoned = false)
    (hlength : c.jobs.length = w.coordinator.jobs.length)
    (hmarks : ∀ k, Coordinator.Marks k w.coordinator c)
    (hentries : ∀ id entry, c.table.entries.get? id = some entry →
      w.coordinator.table.entries.get? id = some entry) : (w.withCoordinator c).Orderly where
  tracks := htracks
  unpoisoned := hpoisoned
  length_benches := h.length_benches.trans hlength.symm
  length_commissions := h.length_commissions.trans hlength.symm
  keeps k o j b ho hj hb := by
    have hj : c.jobs[k]? = some j := hj
    have hlt : k < w.coordinator.jobs.length := hlength ▸ (List.getElem?_eq_some_iff.1 hj).1
    obtain ⟨cancelled, resolved, hj', -⟩ := (hmarks k).job _ (List.getElem?_eq_getElem hlt)
    cases hj.symm.trans hj'
    exact (h.keeps k o _ b ho (List.getElem?_eq_getElem hlt) hb).flags cancelled resolved
  latest id entry hentry := h.latest id entry (hentries id entry hentry)

/-- An event at one bench does not matter to the others. -/
lemma stepLoop (h : w.Orderly) (k : Nat) {event : Job.Loop.Event}
    (hjob : ∀ l : Job.Loop, ∃ deadline iteration best,
      (l.step w.coordinator.timing event).job = { l.job with deadline, iteration, best })
    (hkeeps : ∀ (o : Commission) (j : Job) (b : Bench), b.Keeps o j →
      b.KeptBy o j event ((b.loop j).step w.coordinator.timing event)) :
    (w.stepLoop k event).Orderly := by
  unfold Workshop.stepLoop
  split
  next j b hj hb =>
    obtain ⟨deadline, iteration, best, hstep⟩ := hjob (b.loop j)
    refine ⟨h.tracks.modifyJob hj ?_ ?_ ?_, h.unpoisoned, ?_, ?_, ?_, h.latest⟩
    · rw [hstep]
      rfl
    · rw [hstep]
      rfl
    · rw [hstep]
      rfl
    · show (w.benches.set k _).length = (w.coordinator.jobs.modify k _).length
      rw [List.length_set, List.length_modify]
      exact h.length_benches
    · show _ = (w.coordinator.jobs.modify k _).length
      rw [List.length_modify]
      exact h.length_commissions
    · intro i o j' b' ho hj' hb'
      have hj' : (w.coordinator.jobs.modify k _)[i]? = some j' := hj'
      have hb' : (w.benches.set k _)[i]? = some b' := hb'
      by_cases hk : k = i
      · subst hk
        rw [List.getElem?_modify, hj] at hj'
        rw [List.getElem?_set_self (List.getElem?_eq_some_iff.1 hb).1] at hb'
        cases hb'
        simp only [if_true, Option.map_eq_map, Option.map_some, Option.some.injEq] at hj'
        subst hj'
        exact hkeeps o j b (h.keeps k o j b ho hj hb)
      · rw [List.getElem?_modify] at hj'
        rw [List.getElem?_set_ne hk] at hb'
        simp only [if_neg hk, Option.map_eq_map, Option.map_id_fun', id_eq] at hj'
        exact h.keeps i o j' b' ho hj' hb'
  next => exact h

/-! ### The start of a job -/

section Place

variable {parent : Block} {a : PayloadAttributes}

/-- The new job begins its commission, and the others go on with theirs. -/
lemma keeps_place (h : w.Orderly) (hlength : c.jobs.length = w.coordinator.jobs.length)
    (hmarks : ∀ k, Coordinator.Marks k w.coordinator (c.place id parent a)) {o : Commission}
    {j : Job} {b : Bench} (ho : (w.commissions ++ [⟨id, parent, a⟩])[k]? = some o)
    (hj : (c.place id parent a).jobs[k]? = some j)
    (hb : (w.benches ++ [({} : Bench)])[k]? = some b) : b.Keeps o j := by
  have hcommissions := h.length_commissions
  have hbenches := h.length_benches
  by_cases hk : k < w.coordinator.jobs.length
  · rw [List.getElem?_append_left (hcommissions ▸ hk)] at ho
    rw [List.getElem?_append_left (hbenches ▸ hk)] at hb
    obtain ⟨cancelled, resolved, hj', -⟩ := (hmarks k).job _ (List.getElem?_eq_getElem hk)
    cases hj.symm.trans hj'
    exact (h.keeps k o _ b ho (List.getElem?_eq_getElem hk) hb).flags cancelled resolved
  · have hj : (c.jobs ++ [_])[k]? = some j := hj
    obtain rfl : k = c.jobs.length := by
      have hlt := (List.getElem?_eq_some_iff.1 hj).1
      rw [List.length_append, List.length_singleton] at hlt
      omega
    rw [List.getElem?_concat_length] at hj
    rw [hlength, ← hcommissions, List.getElem?_concat_length] at ho
    rw [hlength, ← hbenches, List.getElem?_concat_length] at hb
    cases ho
    cases hb
    cases hj
    exact .empty rfl rfl rfl rfl rfl rfl

/-- From now on the id leads to the new job, and the other ids to the same jobs as before. -/
lemma latest_place (h : w.Orderly) (hlength : c.jobs.length = w.coordinator.jobs.length)
    (hentries : ∀ id entry, c.table.entries.get? id = some entry →
      w.coordinator.table.entries.get? id = some entry)
    {other : PayloadId} {entry : JobEntry}
    (hentry : (c.place id parent a).table.entries.get? other = some entry) {o : Commission}
    (ho : (w.commissions ++ [⟨id, parent, a⟩])[k]? = some o) (hid : o.id = other) :
    k ≤ entry.job := by
  have hk := (List.getElem?_eq_some_iff.1 ho).1
  rw [List.length_append, List.length_singleton, h.length_commissions, ← hlength] at hk
  have hentry : (c.table.entries.insert id ⟨c.jobs.length, parent.hash⟩).get? other = some entry :=
    hentry
  rw [Assoc.get?_insert] at hentry
  split_ifs at hentry with hother
  · cases hentry
    exact Nat.le_of_lt_succ hk
  · have hold : k ≠ w.commissions.length := by
      rintro rfl
      rw [List.getElem?_concat_length] at ho
      cases ho
      exact hother hid.symm
    have hcommissions := h.length_commissions
    rw [List.getElem?_append_left (by omega)] at ho
    exact h.latest other entry (hentries other entry hentry) k o ho hid

/-- A job that is started gets the next number. -/
lemma started (h : w.Orderly)
    (hfree : (w.coordinator.makeRoom parent.hash).2.table.entries.get? id = none) :
    (w.started id parent a).Orderly := by
  have htracks := h.tracks.startAs hfree a
  have hmarks (k : Nat) := Coordinator.Marks.startAs w.coordinator id parent a (k := k)
  have hafter : (w.coordinator.startAs id parent a).after =
      (w.coordinator.makeRoom parent.hash).2.place id parent a := by
    simp only [Coordinator.startAs, h.unpoisoned, Bool.false_eq_true, if_false]
  have hentries (other : PayloadId) (entry : JobEntry)
      (hentry : (w.coordinator.makeRoom parent.hash).2.table.entries.get? other = some entry) :=
    Coordinator.get?_of_makeRoom hentry
  obtain ⟨hpoisoned, hlength⟩ :
      (w.coordinator.makeRoom parent.hash).2.poisoned = w.coordinator.poisoned ∧
        (w.coordinator.makeRoom parent.hash).2.jobs.length = w.coordinator.jobs.length := by
    obtain ⟨jobs, table, hroom, hlength⟩ := w.coordinator.makeRoom_eq_with parent.hash
    rw [hroom]
    exact ⟨rfl, hlength⟩
  unfold Workshop.started
  rw [hafter] at htracks hmarks ⊢
  generalize (w.coordinator.makeRoom parent.hash).2 = c at *
  have hlonger : (c.place id parent a).jobs.length = w.coordinator.jobs.length + 1 := by
    show (c.jobs ++ [_]).length = _
    rw [List.length_append, List.length_singleton, hlength]
  refine ⟨htracks, hpoisoned.trans h.unpoisoned, ?_, ?_,
    fun _ _ _ _ => h.keeps_place hlength hmarks,
    fun _ _ hentry _ _ => h.latest_place hlength hentries hentry⟩
  · rw [hlonger, List.length_append, List.length_singleton, h.length_benches]
  · rw [hlonger, List.length_append, List.length_singleton, h.length_commissions]

end Place

/-! ### Other calls -/

lemma cancel (h : w.Orderly) (id : PayloadId) :
    (w.withCoordinator (w.coordinator.cancel id).2).Orderly := by
  have htracks := h.tracks.cancel id
  have hmarks (k : Nat) := Coordinator.Marks.cancel w.coordinator id (k := k)
  obtain ⟨jobs, table, hcancel, hlength⟩ := w.coordinator.cancel_eq_with id
  refine h.withCoordinator htracks ?_ ?_ hmarks fun other entry hentry => ?_
  · rw [hcancel]
    exact h.unpoisoned
  · rw [hcancel]
    exact hlength
  · unfold Coordinator.cancel at hentry
    split at hentry
    · rw [Coordinator.Tracks.table_remove, JobTable.erase_entries, Assoc.get?_erase] at hentry
      split_ifs at hentry
      exact hentry
    · exact hentry

/-- Who asks or looks changes the requests, and tells a job at most that its payload was asked
for. -/
lemma request (h : w.Orderly) {fetches : List Fetch}
    (hc : c = { w.coordinator with fetches } ∨
      ∃ job, c = { w.coordinator.resolve job with fetches }) : (w.withCoordinator c).Orderly := by
  obtain rfl | ⟨job, rfl⟩ := hc
  · exact h.withCoordinator (h.tracks.of_eq rfl rfl) h.unpoisoned rfl (fun k => .of_eq rfl rfl rfl)
      fun _ _ hentry => hentry
  · have hworks : Coordinator.Works none w.coordinator (w.coordinator.resolve job) := .resolve _ job
    have hmarks (k : Nat) : Coordinator.Marks k w.coordinator (w.coordinator.resolve job) :=
      .resolve _ job
    exact h.withCoordinator ((h.tracks.works hworks).of_eq rfl rfl) h.unpoisoned hworks.length
      (fun k => (hmarks k).trans (.of_eq rfl rfl rfl)) fun _ _ hentry => hentry

lemma step (h : w.Orderly) (event : Event) : (w.step event).Orderly := by
  cases event with
  | work job =>
    exact h.stepLoop job (fun l => l.work_job _ _ _) fun o j b hkeeps => hkeeps.work _ _ _
  | answer job outcome =>
    exact h.stepLoop job
      (fun l => ⟨l.job.deadline, l.job.iteration, l.job.best, l.answer_job outcome⟩)
      fun o j b hkeeps => hkeeps.answer outcome
  | start id parent attributes =>
    unfold Workshop.step
    dsimp only
    split_ifs with hfree
    · rw [Bool.and_eq_true, Option.isNone_iff_eq_none] at hfree
      exact h.started hfree.2
    · exact h
  | cancel id => exact h.cancel id
  | retrieve id =>
    obtain ⟨fetches, hrequested⟩ := requested_cases w.coordinator id
    exact h.request hrequested
  | look fetch =>
    obtain ⟨fetches, hlooked⟩ := looked_cases w.coordinator fetch
    exact h.request hlooked
  | move head =>
    exact ⟨h.tracks, h.unpoisoned, h.length_benches, h.length_commissions, h.keeps, h.latest⟩
  | pass ms =>
    exact h.withCoordinator (h.tracks.of_eq rfl rfl) h.unpoisoned rfl (fun k => .of_eq rfl rfl rfl)
      fun _ _ hentry => hentry

lemma run (h : w.Orderly) (events : List Event) : (w.run events).Orderly :=
  events.foldlRecOn _ h fun _ hw event _ => hw.step event

end Orderly

/-! ### What stays -/

lemma commissions_step (w : Workshop) (event : Event) :
    w.commissions <+: (w.step event).commissions := by
  cases event with
  | start id parent attributes =>
    unfold step
    dsimp only
    split_ifs
    · exact List.prefix_append _ _
    · exact List.prefix_rfl
  | work job =>
    unfold step stepLoop
    dsimp only
    split <;> exact List.prefix_rfl
  | answer job outcome =>
    unfold step stepLoop
    dsimp only
    split <;> exact List.prefix_rfl
  | _ => exact List.prefix_rfl

lemma commissions_run (w : Workshop) (events : List Event) :
    w.commissions <+: (w.run events).commissions :=
  events.foldlRecOn (motive := fun w' : Workshop => w.commissions <+: w'.commissions) _
    List.prefix_rfl fun w' hw event _ => hw.trans (w'.commissions_step event)

/-- The request waits for the job, or it is answered. -/
def Concerns (w : Workshop) (fetch k : Nat) : Prop :=
  w.coordinator.fetches[fetch]? = some (.watching k) ∨
    ∃ payload, w.coordinator.fetches[fetch]? = some (.answered payload)

lemma fetches_startAs (c : Coordinator) (id : PayloadId) (parent : Block) (a : PayloadAttributes) :
    (c.startAs id parent a).after.fetches = c.fetches := by
  obtain ⟨jobs, table, hroom, -⟩ := c.makeRoom_eq_with parent.hash
  unfold Coordinator.startAs
  dsimp only
  split_ifs
  · rfl
  · show (c.makeRoom parent.hash).2.fetches = _
    rw [hroom]

/-- Requests are added behind those there are, and each changes only by its own look. -/
lemma fetches_step (w : Workshop) (event : Event) :
    w.coordinator.fetches <+: (w.step event).coordinator.fetches ∨
      ∃ fetch f, w.coordinator.fetches[fetch]? = some f ∧
        (w.step event).coordinator.fetches =
          w.coordinator.fetches.set fetch (w.coordinator.serve f).1 := by
  cases event with
  | work job =>
    unfold step stepLoop
    dsimp only
    split <;> exact .inl List.prefix_rfl
  | answer job outcome =>
    unfold step stepLoop
    dsimp only
    split <;> exact .inl List.prefix_rfl
  | start id parent attributes =>
    unfold step
    dsimp only
    split_ifs
    · unfold started
      dsimp only
      rw [fetches_startAs]
      exact .inl List.prefix_rfl
    · exact .inl List.prefix_rfl
  | cancel id =>
    obtain ⟨jobs, table, hcancel, -⟩ := w.coordinator.cancel_eq_with id
    unfold step withCoordinator
    dsimp only
    rw [hcancel]
    exact .inl List.prefix_rfl
  | retrieve id =>
    unfold step requested
    dsimp only
    split
    · exact .inl (List.prefix_append _ _)
    · exact .inl (List.prefix_append _ _)
  | look fetch =>
    unfold step looked
    dsimp only
    split
    next f hf => exact .inr ⟨fetch, f, hf, rfl⟩
    next => exact .inl List.prefix_rfl
  | move head => exact .inl List.prefix_rfl
  | pass ms => exact .inl List.prefix_rfl

lemma serve_watching (c : Coordinator) (k : Nat) :
    (c.serve (.watching k)).1 = .watching k ∨
      ∃ payload, (c.serve (.watching k)).1 = .answered payload := by
  show c.watch k = _ ∨ ∃ payload, c.watch k = _
  unfold Coordinator.watch
  split
  · exact .inr ⟨_, rfl⟩
  · split_ifs
    · exact .inl rfl
    · exact .inr ⟨_, rfl⟩

lemma Concerns.step {fetch : Nat} (h : w.Concerns fetch k) (event : Event) :
    (w.step event).Concerns fetch k := by
  obtain hprefix | ⟨other, f, hf, hset⟩ := w.fetches_step event
  · obtain ⟨more, hmore⟩ := hprefix
    have hkept {f : Fetch} (hf : w.coordinator.fetches[fetch]? = some f) :
        (w.step event).coordinator.fetches[fetch]? = some f := by
      rw [← hmore, List.getElem?_append_left (List.getElem?_eq_some_iff.1 hf).1, hf]
    exact h.imp hkept (Exists.imp fun payload => hkept)
  · unfold Concerns
    rw [hset]
    by_cases hother : other = fetch
    · subst hother
      rw [List.getElem?_set_self (List.getElem?_eq_some_iff.1 hf).1]
      obtain hwatching | ⟨payload, hanswered⟩ := h
      · cases hf.symm.trans hwatching
        exact (serve_watching _ k).imp (congrArg some)
          (Exists.imp fun payload => congrArg some)
      · cases hf.symm.trans hanswered
        exact .inr ⟨payload, rfl⟩
    · rw [List.getElem?_set_ne hother]
      exact h

lemma Concerns.run {fetch : Nat} (h : w.Concerns fetch k) (events : List Event) :
    (w.run events).Concerns fetch k :=
  events.foldlRecOn (motive := fun w : Workshop => w.Concerns fetch k) _ h
    fun _ hw event _ => hw.step event

/-! ### What a request is answered -/

/-- At a point that is not one of its ends, a job is active. -/
lemma isFinished_iff {j : Job} {point : Job.Point} (hphase : j.phase = point.phase) :
    j.isFinished = true ↔ point = .ended ∨ point = .crashed := by
  rw [Job.isFinished, hphase]
  cases point <;> simp [Job.Point.phase]

/-- The request waits for a job. -/
def Waits (w : Workshop) (fetch : Nat) : Prop :=
  ∃ job, w.coordinator.fetches[fetch]? = some (.watching job)

/-- The request waits, and if it looks now, this is its answer. -/
def Returns (w : Workshop) (fetch : Nat) (payload : Option BuiltPayload) : Prop :=
  w.Waits fetch ∧ (w.step (.look fetch)).coordinator.fetches[fetch]? = some (.answered payload)

/-- A job is watched at its bench. -/
lemma Orderly.watch_eq (h : w.Orderly) {b : Bench} (hb : w.benches[k]? = some b) :
    w.coordinator.watch k = match b.published.getLast? with
      | some p => .answered (some p)
      | none => if b.point = .ended ∨ b.point = .crashed then .answered none else .watching k := by
  have hlt := (List.getElem?_eq_some_iff.1 hb).1
  have hlt_jobs : k < w.coordinator.jobs.length := h.length_benches ▸ hlt
  have hlt_commissions : k < w.commissions.length := h.length_commissions ▸ hlt_jobs
  have hj := List.getElem?_eq_getElem hlt_jobs
  have hkeeps := h.keeps k _ _ b (List.getElem?_eq_getElem hlt_commissions) hj hb
  have hfinished := isFinished_iff hkeeps.phase_eq
  have hactive : w.coordinator.isActive k = true ↔ ¬ (b.point = .ended ∨ b.point = .crashed) := by
    rw [Coordinator.isActive, hj, ← hfinished]
    simp
  rw [Coordinator.watch, Coordinator.best?, hj, Option.bind_some, hkeeps.best_eq]
  cases b.published.getLast? with
  | some p => rfl
  | none =>
    dsimp only
    by_cases hend : b.point = .ended ∨ b.point = .crashed
    · rw [if_pos hend, if_neg fun h => hactive.1 h hend]
    · rw [if_neg hend, if_pos (hactive.2 hend)]

/-- The answer to a request that waits for a job is told by the bench of that job. -/
lemma Orderly.returns_iff (h : w.Orderly) {fetch : Nat}
    (hwaits : w.coordinator.fetches[fetch]? = some (.watching k)) {b : Bench}
    (hb : w.benches[k]? = some b) {payload : Option BuiltPayload} :
    w.Returns fetch payload ↔ b.published.getLast? = payload ∧
      (payload = none → b.point = .ended ∨ b.point = .crashed) := by
  have hlooked : (w.step (.look fetch)).coordinator.fetches[fetch]? =
      some (w.coordinator.watch k) := by
    simp only [Workshop.step, looked, hwaits]
    exact List.getElem?_set_self (List.getElem?_eq_some_iff.1 hwaits).1
  have hreturns : w.Returns fetch payload ↔ w.coordinator.watch k = .answered payload := by
    rw [Returns, hlooked, Option.some.injEq]
    exact and_iff_right ⟨k, hwaits⟩
  rw [hreturns, h.watch_eq hb]
  cases b.published.getLast? with
  | some p =>
    dsimp only
    rw [Fetch.answered.injEq]
    refine (and_iff_left_of_imp ?_).symm
    rintro rfl ⟨⟩
  | none =>
    dsimp only
    split_ifs with hend
    · rw [Fetch.answered.injEq]
      exact (and_iff_left fun _ => hend).symm
    · refine iff_of_false nofun ?_
      rintro ⟨rfl, hended⟩
      exact hend (hended rfl)

/-- The job is the last one that was started under the id, and this is its commission. -/
structure LastStarted (w : Workshop) (id : PayloadId) (k : Nat) (o : Commission) : Prop where
  commission : w.commissions[k]? = some o
  id_eq : o.id = id
  last : ∀ (i : Nat) (other : Commission), w.commissions[i]? = some other → other.id = id → i ≤ k

/-- The request is answered from the bench of the job: with its last payload as soon as it has one,
and without one only if its loop has ended without any. -/
structure Serves (w : Workshop) (fetch k : Nat) (o : Commission) (b : Bench) : Prop where
  bench : w.benches[k]? = some b
  increasing : b.published.Pairwise (·.iteration < ·.iteration)
  payload : ∀ p, w.Returns fetch (some p) → b.Vouches o p
  nothing : w.Returns fetch none → (b.point = .ended ∨ b.point = .crashed) ∧ b.published = []
  atOnce : w.Waits fetch → b.published ≠ [] → ∃ p, w.Returns fetch (some p)

lemma Orderly.lastStarted (h : w.Orderly) (hid : w.coordinator.lookup? id = some k) :
    ∃ o, w.LastStarted id k o := by
  obtain ⟨entry, hentry, rfl⟩ := Coordinator.exists_entry_of_lookup? hid
  obtain ⟨j, hj, hjid, -⟩ := h.tracks.job id entry hentry
  have hlt := (List.getElem?_eq_some_iff.1 hj).1
  have ho := List.getElem?_eq_getElem (h.length_commissions ▸ hlt)
  have hb := List.getElem?_eq_getElem (h.length_benches ▸ hlt)
  exact ⟨_, ho, (h.keeps _ _ j _ ho hj hb).id_eq.symm.trans hjid, h.latest id entry hentry⟩

/-- A request about a job is served from its bench. -/
lemma Orderly.serves (h : w.Orderly) {fetch : Nat} (hconcerns : w.Concerns fetch k)
    {o : Commission} (ho : w.commissions[k]? = some o) : ∃ b, w.Serves fetch k o b := by
  have hlt := (List.getElem?_eq_some_iff.1 ho).1
  have hj := List.getElem?_eq_getElem (h.length_commissions ▸ hlt)
  have hb := List.getElem?_eq_getElem (h.length_benches ▸ h.length_commissions ▸ hlt)
  have hkeeps := h.keeps k o _ _ ho hj hb
  -- a request that waits, waits for this job
  have hwaits (hwaits : w.Waits fetch) :
      w.coordinator.fetches[fetch]? = some (.watching k) := by
    obtain ⟨job, hjob⟩ := hwaits
    refine hconcerns.resolve_right ?_
    rintro ⟨payload, hanswered⟩
    cases hjob.symm.trans hanswered
  refine ⟨_, hb, hkeeps.pairwise_published, fun p hreturns => ?_, fun hreturns => ?_,
    fun hwait hpublished => ?_⟩
  · exact hkeeps.vouches ((h.returns_iff (hwaits hreturns.1) hb).1 hreturns).1
  · obtain ⟨hlast, hend⟩ := (h.returns_iff (hwaits hreturns.1) hb).1 hreturns
    exact ⟨hend rfl, List.getLast?_eq_none_iff.1 hlast⟩
  · obtain ⟨p, hp⟩ := Option.ne_none_iff_exists'.1 (mt List.getLast?_eq_none_iff.1 hpublished)
    exact ⟨p, (h.returns_iff (hwaits hwait) hb).2 ⟨hp, nofun⟩⟩

/-- In every run of jobs among callers, with any answers of the builder, who asks for a payload
under an id in the table is given that of the job that was last started under this id. -/
theorem retrieve_serves (hfresh : w.Fresh) (before : List Event)
    (hid : (w.run before).coordinator.lookup? id = some k) :
    ∃ o, (w.run before).LastStarted id k o ∧ ∀ later,
      ∃ b, ((w.run before).run (.retrieve id :: later)).Serves
        (w.run before).coordinator.fetches.length k o b := by
  have horderly := hfresh.orderly.run before
  generalize w.run before = asked at hid horderly
  obtain ⟨o, hlast⟩ := horderly.lastStarted hid
  refine ⟨o, hlast, fun later => ?_⟩
  have hconcerns : (asked.step (.retrieve id)).Concerns asked.coordinator.fetches.length k := by
    refine .inl ?_
    simp only [step, requested, hid]
    exact List.getElem?_concat_length
  have hcommission : (asked.run (.retrieve id :: later)).commissions[k]? = some o := by
    obtain ⟨more, hmore⟩ := asked.commissions_run (.retrieve id :: later)
    rw [← hmore, List.getElem?_append_left (List.getElem?_eq_some_iff.1 hlast.commission).1,
      hlast.commission]
  exact (horderly.run (.retrieve id :: later)).serves (hconcerns.run later) hcommission

/-- A workshop without jobs. -/
def idle : Workshop :=
  { coordinator := Coordinator.unused, head := some Coordinator.baseBlock.hash }

/-- A job is started, its first call fails, and its second one, a long time after, gives a payload,
which it publishes. -/
def secondRound : List Event :=
  [.start (.zero 8) Coordinator.baseBlock Coordinator.nextAttributes, .work 0, .work 0, .work 0,
    .work 0, .work 0, .answer 0 .failed, .work 0, .work 0, .pass 500, .work 0, .work 0, .work 0,
    .work 0, .work 0, .answer 0 (.built Coordinator.firstPayload),
    .work 0]

theorem retrieve_serves_secondRound :
    idle.Fresh ∧ (idle.run secondRound).coordinator.lookup? (.zero 8) = some 0 ∧
      (∃ o, (idle.run secondRound).LastStarted (.zero 8) 0 o ∧ ∀ later,
        ∃ b, ((idle.run secondRound).run (.retrieve (.zero 8) :: later)).Serves 0 0 o b) ∧
      ((idle.run secondRound).step (.retrieve (.zero 8))).Returns 0
        (some { Coordinator.firstPayload with iteration := 1 }) := by
  have hfresh : idle.Fresh := ⟨⟨rfl, rfl⟩, rfl, rfl, rfl, rfl⟩
  have hid : (idle.run secondRound).coordinator.lookup? (.zero 8) = some 0 := rfl
  exact ⟨hfresh, hid, retrieve_serves hfresh secondRound hid, ⟨0, rfl⟩, rfl⟩

end Workshop

end ChainHead
