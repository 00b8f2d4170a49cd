import ChainHead.Proofs.Build.Bookkeeping

/-!
# The gauge of jobs at work

The coordinator publishes the number of jobs at work when it starts a job and when a job ends.  But
that number also falls when a job is cancelled, and when the builder stops one, and then nothing is
published.  So the gauge is never too low, and it is too high by no more than the jobs that were
taken off the table and have not ended yet and the jobs that were stopped
(`Coordinator.gauge_of_happens`).  Where it is right, it stays right in all that happens but the
cancellation of a job at work, as long as no job is stopped.

All that is counted here is counted over the list of jobs: a job is in the table unless it bears the
mark of cancellation, so the entries need not be looked at (`Coordinator.Tracks.activeInTable_eq`).
-/

namespace ChainHead

/-! ## Counting in a list -/

section Counting

variable {α : Type} {l : List α} {k : Nat} {a : α}

/-- One place of a list counts as what stands there. -/
lemma countP_modify_add (p : α → Bool) (f : α → α) (h : l[k]? = some a) :
    (l.modify k f).countP p + (p a).toNat = l.countP p + (p (f a)).toNat := by
  have hone (b : α) : (if p b then 1 else 0) = (p b).toNat := by cases p b <;> rfl
  induction l generalizing k with
  | nil => simp at h
  | cons b l ih =>
    cases k with
    | zero =>
      cases h
      simp only [List.modify_zero_cons, List.countP_cons, hone]
      omega
    | succ k =>
      have ih := ih h
      simp only [List.modify_succ_cons, List.countP_cons]
      omega

/-- A list is counted by its places. -/
lemma countP_range_any (p : α → Bool) (l : List α) :
    (List.range l.length).countP (fun k => l[k]?.any p) = l.countP p := by
  have hplaces : (List.range l.length).map (fun k => l[k]?) = l.map some :=
    List.ext_getElem (by simp) (by simp)
  calc (List.range l.length).countP (fun k => l[k]?.any p)
      = ((List.range l.length).map fun k => l[k]?).countP (Option.any p) := by
        rw [List.countP_map]; rfl
    _ = l.countP p := by rw [hplaces, List.countP_map]; rfl

end Counting

namespace Job

/-- The job is in the table and has not ended. -/
def isWorking (j : Job) : Bool := ! j.cancelled && ! j.isFinished

/-- The job was taken off the table and has not ended. -/
def isLeaving (j : Job) : Bool := j.cancelled && ! j.isFinished

/-- The job was stopped by the builder. -/
def isStopped (j : Job) : Bool := j.phase = .crashed

variable {j : Job}

lemma counts_of_unfinished (h : j.isFinished = false) :
    j.isWorking = ! j.cancelled ∧ j.isLeaving = j.cancelled ∧ j.isStopped = false := by
  have hphase := (Bool.or_eq_false_iff.1 h).2
  exact ⟨by simp [isWorking, h], by simp [isLeaving, h], hphase⟩

lemma counts_of_crashed (h : j.phase = .crashed) :
    j.isWorking = false ∧ j.isLeaving = false ∧ j.isStopped = true := by
  simp [isWorking, isLeaving, isStopped, isFinished, h]

end Job

namespace Coordinator

variable {c c' : Coordinator} {head : Option Hash} {id : PayloadId} {k : Nat} {j : Job}

/-- The number of jobs that were taken off the table and have not ended. -/
def leaving (c : Coordinator) : Nat := c.jobs.countP Job.isLeaving

/-- The number of jobs that were stopped by the builder. -/
def stopped (c : Coordinator) : Nat := c.jobs.countP Job.isStopped

/-! ## Counting over the jobs -/

namespace Tracks

lemma activeInTable_eq (h : c.Tracks) : c.activeInTable = c.jobs.countP Job.isWorking := by
  -- the numbers in the table are those of the jobs without the mark
  have hperm : c.table.jobs.Perm
      ((List.range c.jobs.length).filter fun k => (c.jobs[k]?).any fun j => ! j.cancelled) := by
    refine (List.perm_ext_iff_of_nodup (h.indexed.increasing.imp Nat.ne_of_lt)
      (List.nodup_range.filter _)).2 fun k => ?_
    rw [List.mem_filter, List.mem_range]
    constructor
    · intro hk
      have hlt := h.lt_length hk
      have hmark := (h.cancelled k _ (List.getElem?_eq_getElem hlt)).2 hk
      exact ⟨hlt, by simp [List.getElem?_eq_getElem hlt, hmark]⟩
    · rintro ⟨hlt, hmark⟩
      rw [List.getElem?_eq_getElem hlt, Option.any_some, Bool.not_eq_true'] at hmark
      exact (h.cancelled k _ (List.getElem?_eq_getElem hlt)).1 hmark
  rw [activeInTable, hperm.countP_eq, List.countP_filter, ← countP_range_any Job.isWorking]
  refine List.countP_congr fun k hk => ?_
  rw [isActive, List.getElem?_eq_getElem (List.mem_range.1 hk)]
  simp [Job.isWorking, and_comm]

/-- Where no two jobs have the same id, a job at its end need not be left out. -/
lemma activeExcept_eq (h : c.Tracks) (hids : (c.jobs.map Job.id).Nodup) (hj : c.jobs[k]? = some j)
    (hfinished : j.isFinished = true) : c.activeExcept j.id = c.activeInTable := by
  rw [activeExcept, activeInTable, JobTable.jobs, Assoc.values, List.map_map, List.countP_map]
  refine List.countP_congr fun p hp => ?_
  by_cases hid : p.1 = j.id
  · -- the entry is that of the job itself
    obtain ⟨j', hj', hid', -⟩ := h.job _ _ ((Assoc.get?_eq_some_iff h.indexed.nodup).2 hp)
    have hk : k = p.2.job := by
      have hlt : k < (c.jobs.map Job.id).length := by
        rw [List.length_map]
        exact (List.getElem?_eq_some_iff.1 hj).1
      refine (List.getElem?_inj hlt hids).1 ?_
      rw [List.getElem?_map, List.getElem?_map, hj, hj', Option.map_some, Option.map_some, hid',
        hid]
    simp [hid, isActive, ← hk, hj, hfinished]
  · simp [hid]

end Tracks

/-- Jobs that work keep their ids. -/
lemma Works.map_id_eq (h : Works head c c') : c'.jobs.map Job.id = c.jobs.map Job.id := by
  refine List.ext_getElem? fun k => ?_
  rw [List.getElem?_map, List.getElem?_map]
  cases hj : c.jobs[k]? with
  | some j =>
    obtain ⟨j', hj', hevolves⟩ := h.evolves k j hj
    rw [hj', Option.map_some, Option.map_some, Job.id_eq_of_terms hevolves.terms_eq]
  | none =>
    have hnone : c'.jobs[k]? = none := by
      rw [List.getElem?_eq_none_iff] at hj ⊢
      exact h.length ▸ hj
    rw [hnone]

/-- One job counts as what it is. -/
lemma counts_modify {f : Job → Job} (h : c.Tracks) (h' : c'.Tracks)
    (hjobs : c'.jobs = c.jobs.modify k f) (hj : c.jobs[k]? = some j) :
    c'.activeInTable + j.isWorking.toNat = c.activeInTable + (f j).isWorking.toNat ∧
      c'.leaving + j.isLeaving.toNat = c.leaving + (f j).isLeaving.toNat ∧
      c'.stopped + j.isStopped.toNat = c.stopped + (f j).isStopped.toNat := by
  rw [h.activeInTable_eq, h'.activeInTable_eq, leaving, leaving, stopped, stopped, hjobs]
  exact ⟨countP_modify_add _ f hj, countP_modify_add _ f hj, countP_modify_add _ f hj⟩

/-! ## The gauge -/

/-- The gauge says how many jobs are at work. -/
def GaugeRight (c : Coordinator) : Prop := c.gauge = c.activeInTable

/-- The gauge is not too low, and it is too high by at most the jobs that have left or were
stopped. -/
structure GaugeBounded (c : Coordinator) : Prop where
  active_le : c.activeInTable ≤ c.gauge
  le_sum : c.gauge ≤ c.activeInTable + c.leaving + c.stopped

lemma GaugeRight.bounded (h : c.GaugeRight) : c.GaugeBounded := by
  rw [GaugeRight] at h
  exact ⟨by omega, by omega⟩

/-- The gauge stays within its bounds, and it stays right if no job is stopped. -/
structure KeepsGauge (c c' : Coordinator) : Prop where
  stopped_le : c.stopped ≤ c'.stopped
  bounded : c.GaugeBounded → c'.GaugeBounded
  right : c'.stopped = c.stopped → c.GaugeRight → c'.GaugeRight

namespace KeepsGauge

variable {c'' : Coordinator}

lemma refl (c : Coordinator) : KeepsGauge c c := ⟨Nat.le_refl _, fun h => h, fun _ h => h⟩

lemma trans (h : KeepsGauge c c') (h' : KeepsGauge c' c'') : KeepsGauge c c'' where
  stopped_le := Nat.le_trans h.stopped_le h'.stopped_le
  bounded hbounded := h'.bounded (h.bounded hbounded)
  right hstopped hright := by
    have hle := h.stopped_le
    have hle' := h'.stopped_le
    exact h'.right (by omega) (h.right (by omega) hright)

lemma of_right (hstopped : c.stopped ≤ c'.stopped) (hright : c'.GaugeRight) : KeepsGauge c c' :=
  ⟨hstopped, fun _ => hright.bounded, fun _ _ => hright⟩

lemma of_counts (hgauge : c'.gauge = c.gauge) (hactive : c'.activeInTable = c.activeInTable)
    (hleaving : c'.leaving = c.leaving) (hstopped : c'.stopped = c.stopped) : KeepsGauge c c' where
  stopped_le := Nat.le_of_eq hstopped.symm
  bounded h := by
    refine ⟨?_, ?_⟩
    · rw [hgauge, hactive]
      exact h.active_le
    · rw [hgauge, hactive, hleaving, hstopped]
      exact h.le_sum
  right _ hright := by
    rw [GaugeRight, hgauge, hactive]
    exact hright

/-- A job that ends in its turn sets the gauge.  One that goes on counts as before, and one that is
stopped counts as stopped. -/
lemma conclude {turn : Job.Turn} (h : c.Tracks) (hids : (c.jobs.map Job.id).Nodup)
    (hpoisoned : c.poisoned = false) (hj : c.jobs[k]? = some j) (hworking : j.isFinished = false)
    (hstep : j.Step c.timing c.script head turn.job) : KeepsGauge c (c.conclude k turn) := by
  have hworks : Works head c (c.conclude k turn) := .conclude hj hstep
  have h' := h.works hworks
  have hcancelled := Job.cancelled_eq_of_terms hstep.terms_eq
  have hjobs : (c.conclude k turn).jobs = c.jobs.modify k fun _ => turn.job := by
    obtain ⟨journal, gauge, hconclude⟩ := c.conclude_eq_with k turn
    rw [hconclude, ← List.set_eq_modify]
  obtain ⟨hactive, hleaving, hstopped⟩ := counts_modify h h' hjobs hj
  obtain ⟨hone, hone', hnone⟩ := Job.counts_of_unfinished hworking
  rw [hone] at hactive
  rw [hone'] at hleaving
  rw [hnone, Bool.toNat_false] at hstopped
  have hgoes_on (hgoes : turn.job.isFinished = false) (hphase : turn.job.phase ≠ .ended) :
      KeepsGauge c (c.conclude k turn) := by
    have hgauge : (c.conclude k turn).gauge = c.gauge := by
      simp [Coordinator.conclude, hphase]
    obtain ⟨htwo, htwo', hnone'⟩ := Job.counts_of_unfinished hgoes
    rw [htwo, hcancelled] at hactive
    rw [htwo', hcancelled] at hleaving
    rw [hnone', Bool.toNat_false] at hstopped
    exact .of_counts hgauge (by omega) (by omega) (by omega)
  cases hphase : turn.job.phase with
  | resting => exact hgoes_on (by simp [Job.isFinished, hphase]) (by simp [hphase])
  | building answer => exact hgoes_on (by simp [Job.isFinished, hphase]) (by simp [hphase])
  | ended =>
    have hgauge : (c.conclude k turn).gauge = (c.conclude k turn).activeExcept turn.job.id := by
      simp only [Coordinator.conclude, hphase, hpoisoned, decide_true, Bool.not_false,
        Bool.and_self, if_true]
      rfl
    have hj' : (c.conclude k turn).jobs[k]? = some turn.job := by
      rw [hjobs, List.getElem?_modify, hj]
      simp
    have hexcept := h'.activeExcept_eq (hworks.map_id_eq ▸ hids) hj'
      (by simp [Job.isFinished, hphase])
    exact .of_right (by omega) (by rw [GaugeRight, hgauge, hexcept])
  | crashed =>
    have hgauge : (c.conclude k turn).gauge = c.gauge := by
      simp [Coordinator.conclude, hphase]
    obtain ⟨hzero, hzero', hstop⟩ := Job.counts_of_crashed hphase
    rw [hzero, Bool.toNat_false] at hactive
    rw [hzero', Bool.toNat_false] at hleaving
    rw [hstop, Bool.toNat_true] at hstopped
    have hsum : (! j.cancelled).toNat + j.cancelled.toNat = 1 := by cases j.cancelled <;> rfl
    refine ⟨by omega, fun ⟨hle, hge⟩ => ⟨?_, ?_⟩, fun hsame _ => ?_⟩
    · rw [hgauge]
      omega
    · rw [hgauge]
      omega
    · omega

end KeepsGauge

/-! ## While jobs work -/

lemma Move.keepsGauge (hmove : Move head c c') (h : c.Tracks) (hids : (c.jobs.map Job.id).Nodup)
    (hpoisoned : c.poisoned = false) : KeepsGauge c c' := by
  cases hmove with
  | idle now wakeups fetches => exact .of_counts rfl rfl rfl rfl
  | resolve k =>
    have hresolved : Works head c (c.resolve k) := .resolve c k
    have h' := h.works hresolved
    cases hj : c.jobs[k]? with
    | none =>
      have hsame : c.resolve k = c := by
        have hlength := List.getElem?_eq_none_iff.1 hj
        unfold Coordinator.resolve modifyJob
        rw [List.modify_eq_self hlength]
      rw [hsame]
      exact .refl c
    | some j =>
      obtain ⟨hactive, hleaving, hstopped⟩ := counts_modify h h' rfl hj
      exact .of_counts rfl (Nat.add_right_cancel hactive) (Nat.add_right_cancel hleaving)
        (Nat.add_right_cancel hstopped)
  | turn k =>
    have hends := c.turn_ends head k
    generalize c.turn head k = c' at hends
    cases hends with
    | idle _ => exact .refl c
    | @attempt j hj hphase hgoes =>
      have hnoted : (c.note j).Tracks := h.of_eq rfl rfl
      have hkeeps : KeepsGauge c (c.note j) := .of_counts rfl rfl rfl rfl
      exact hkeeps.trans (.conclude hnoted hids hpoisoned hj (by simp [Job.isFinished, hphase])
        (.attempt c.now hphase hgoes c.nextAnswer_mem))
    | @quit j hj hphase hstays =>
      exact .conclude h hids hpoisoned hj (by simp [Job.isFinished, hphase]) (.quit hphase hstays)
    | @answer j answer hj hphase =>
      have hstep : j.Step c.timing c.script head (j.answered c.timing c.now answer).job :=
        .answer c.now hphase
      exact .conclude h hids hpoisoned hj (by simp [Job.isFinished, hphase]) hstep

theorem Moves.keepsGauge (hmoves : Moves head c c') (h : c.Tracks)
    (hids : (c.jobs.map Job.id).Nodup) (hpoisoned : c.poisoned = false) : KeepsGauge c c' := by
  induction hmoves with
  | refl => exact .refl c
  | tail hmoves hmove ih =>
    have hworks := Moves.works hmoves
    exact ih.trans (hmove.keepsGauge (h.works hworks) (hworks.map_id_eq ▸ hids)
      (hworks.poisoned.trans hpoisoned))

/-! ## Calls -/

/-- A job that is cancelled counts no more as at work, if it did. -/
lemma counts_cancel (h : c.Tracks) (hid : c.lookup? id = some k) :
    (c.cancel id).2.gauge = c.gauge ∧
      (c.cancel id).2.activeInTable + (c.isActive k).toNat = c.activeInTable ∧
      (c.cancel id).2.leaving = c.leaving + (c.isActive k).toNat ∧
      (c.cancel id).2.stopped = c.stopped := by
  have h' := h.cancel id
  obtain ⟨entry, hentry, rfl⟩ := exists_entry_of_lookup? hid
  obtain ⟨j, hj, -⟩ := h.job id entry hentry
  have hmark : j.cancelled = false :=
    (h.cancelled _ j hj).2 ((JobTable.mem_jobs_iff h.indexed.nodup).2 ⟨id, entry, hentry, rfl⟩)
  have hcancel : (c.cancel id).2 = c.remove id := by
    simp only [Coordinator.cancel, hid]
  have hremove : c.remove id = { c.modifyJob entry.job (fun j => { j with cancelled := true }) with
      table := c.table.erase id } := by
    simp only [Coordinator.remove, hentry]
  rw [hcancel, hremove] at h' ⊢
  obtain ⟨hactive, hleaving, hstopped⟩ := counts_modify h h' rfl hj
  have hisActive : c.isActive entry.job = ! j.isFinished := by
    rw [isActive, hj]
  simp only [Job.isWorking, Job.isLeaving, hmark, Bool.not_true, Bool.not_false, Bool.true_and,
    Bool.false_and, Bool.toNat_false, Nat.add_zero] at hactive hleaving
  rw [hisActive]
  exact ⟨rfl, hactive, hleaving, Nat.add_right_cancel hstopped⟩

/-- A job at work is cancelled. -/
inductive CancelsWorking (c : Coordinator) : Coordinator → Prop where
  | intro {id : PayloadId} {k : Nat} (hid : c.lookup? id = some k) (hactive : c.isActive k = true) :
      CancelsWorking c (c.cancel id).2

lemma CancelsWorking.not_right (hcancels : CancelsWorking c c') (h : c.Tracks)
    (hright : c.GaugeRight) : ¬ c'.GaugeRight := by
  obtain ⟨hid, hactive⟩ := hcancels
  obtain ⟨hgauge, hcount, -⟩ := counts_cancel h hid
  rw [hactive, Bool.toNat_true] at hcount
  rw [GaugeRight] at hright ⊢
  omega

lemma GaugeBounded.cancel (hbounded : c.GaugeBounded) (h : c.Tracks) (id : PayloadId) :
    (c.cancel id).2.GaugeBounded := by
  cases hid : c.lookup? id with
  | none => simpa only [Coordinator.cancel, hid] using hbounded
  | some k =>
    obtain ⟨hgauge, hactive, hleaving, hstopped⟩ := counts_cancel h hid
    obtain ⟨hle, hge⟩ := hbounded
    exact ⟨by omega, by omega⟩

lemma GaugeRight.cancel (hright : c.GaugeRight) (h : c.Tracks)
    (hnot : ¬ CancelsWorking c (c.cancel id).2) : (c.cancel id).2.GaugeRight := by
  cases hid : c.lookup? id with
  | none => simpa only [Coordinator.cancel, hid] using hright
  | some k =>
    have hidle : c.isActive k = false := Bool.eq_false_iff.2 fun hactive => hnot ⟨hid, hactive⟩
    obtain ⟨hgauge, hactive, -⟩ := counts_cancel h hid
    rw [hidle, Bool.toNat_false, Nat.add_zero] at hactive
    rw [GaugeRight, hgauge, hactive]
    exact hright

/-- A job that is started sets the gauge. -/
lemma gaugeRight_startAs (hpoisoned : c.poisoned = false) (id : PayloadId) (parent : Block)
    (a : PayloadAttributes) : (c.startAs id parent a).after.GaugeRight := by
  simp only [startAs, hpoisoned, Bool.false_eq_true, if_false]
  rfl

/-! ## Whatever happens -/

/-- Jobs keep their ids, and a table that was left poisoned stays so. -/
structure Precedes (c c' : Coordinator) : Prop where
  ids : c.jobs.map Job.id <+: c'.jobs.map Job.id
  poisoned : c'.poisoned = false → c.poisoned = false

namespace Precedes

lemma works (h : Works head c c') : Precedes c c' :=
  ⟨h.map_id_eq ▸ List.prefix_rfl, fun hpoisoned => h.poisoned.symm.trans hpoisoned⟩

lemma marks (h : ∀ k, Marks k c c') (hpoisoned : c'.poisoned = false → c.poisoned = false) :
    Precedes c c' := by
  refine ⟨List.prefix_iff_getElem?.2 fun k hk => ?_, hpoisoned⟩
  rw [List.length_map] at hk
  obtain ⟨cancelled, resolved, hj', -⟩ := (h k).job _ (List.getElem?_eq_getElem hk)
  rw [List.getElem?_map, hj', Option.map_some, List.getElem_map]

lemma startAs (c : Coordinator) (id : PayloadId) (parent : Block) (a : PayloadAttributes) :
    Precedes c (c.startAs id parent a).after := by
  refine marks (fun k => .startAs c id parent a) fun hafter => ?_
  cases hpoisoned : c.poisoned with
  | false => rfl
  | true => simp [Coordinator.startAs, hpoisoned] at hafter

lemma cancel (c : Coordinator) (id : PayloadId) : Precedes c (c.cancel id).2 := by
  obtain ⟨jobs, table, hcancel, -⟩ := c.cancel_eq_with id
  exact marks (fun k => .cancel c id) fun hafter =>
    (congrArg Coordinator.poisoned hcancel).symm.trans hafter

lemma startNowhere (c : Coordinator) (parent : Block) :
    Precedes c (c.startNowhere parent).2.2 := by
  refine marks (fun k => .startNowhere c parent) fun hafter => ?_
  cases hpoisoned : c.poisoned with
  | false => rfl
  | true => simp [Coordinator.startNowhere, hpoisoned] at hafter

lemma happens (h : Happens c c') : Precedes c c' := by
  cases h with
  | startAs id parent a _ => exact startAs c id parent a
  | step hstep =>
    cases hstep with
    | start b a =>
      obtain ⟨hids, hpoisoned⟩ := startAs c (draw (c.makeRoom b.hash).2.nextFree) b a
      exact ⟨hids, hpoisoned⟩
    | startNowhere b => exact startNowhere c b
    | cancel id => exact cancel c id
    | retrieve head id => exact works (Moves.retrieve c head id).works
    | ask id => exact ⟨List.prefix_rfl, fun h => h⟩
    | join head fetch => exact works (Moves.join c head fetch).works
    | settle head => exact works (Moves.settle c head).works
    | runUntil head limit => exact works (Moves.runUntil c head limit).works
    | clearJournal => exact ⟨List.prefix_rfl, fun h => h⟩

end Precedes

/-- In all that happens the gauge stays within its bounds.  It stays right unless a job is stopped or
one at work is cancelled. -/
lemma Happens.gauge (hhappens : Happens c c') (h : c.Tracks) (hids : (c'.jobs.map Job.id).Nodup)
    (hpoisoned : c'.poisoned = false) :
    (c.GaugeBounded → c'.GaugeBounded) ∧
      (c.GaugeRight → c'.stopped = c.stopped → ¬ CancelsWorking c c' → c'.GaugeRight) := by
  have hprecedes := Precedes.happens hhappens
  have hids_before := hids.sublist hprecedes.ids.sublist
  have hpoisoned_before := hprecedes.poisoned hpoisoned
  have hright (h : c'.GaugeRight) : (c.GaugeBounded → c'.GaugeBounded) ∧
      (c.GaugeRight → c'.stopped = c.stopped → ¬ CancelsWorking c c' → c'.GaugeRight) :=
    ⟨fun _ => h.bounded, fun _ _ _ => h⟩
  have hkeeps (h : KeepsGauge c c') : (c.GaugeBounded → c'.GaugeBounded) ∧
      (c.GaugeRight → c'.stopped = c.stopped → ¬ CancelsWorking c c' → c'.GaugeRight) :=
    ⟨h.bounded, fun hright hstopped _ => h.right hstopped hright⟩
  cases hhappens with
  | startAs id parent a _ => exact hright (gaugeRight_startAs hpoisoned_before id parent a)
  | step hstep =>
    cases hstep with
    | start b a => exact hright (gaugeRight_startAs hpoisoned_before _ b a)
    | startNowhere b => simp [Coordinator.startNowhere, hpoisoned_before] at hpoisoned
    | cancel id =>
      exact ⟨fun hbounded => hbounded.cancel h id, fun hright _ hnot => hright.cancel h hnot⟩
    | retrieve head id =>
      exact hkeeps ((Moves.retrieve c head id).keepsGauge h hids_before hpoisoned_before)
    | ask id => exact hkeeps (.of_counts rfl rfl rfl rfl)
    | join head fetch =>
      exact hkeeps ((Moves.join c head fetch).keepsGauge h hids_before hpoisoned_before)
    | settle head =>
      exact hkeeps ((Moves.settle c head).keepsGauge h hids_before hpoisoned_before)
    | runUntil head limit =>
      exact hkeeps ((Moves.runUntil c head limit).keepsGauge h hids_before hpoisoned_before)
    | clearJournal => exact hkeeps (.of_counts rfl rfl rfl rfl)

lemma bounded_of_happens (hfresh : c.Fresh) (hgauge : c.gauge = 0)
    (hrun : Relation.ReflTransGen Happens c c') (hids : (c'.jobs.map Job.id).Nodup)
    (hpoisoned : c'.poisoned = false) : c'.GaugeBounded := by
  induction hrun with
  | refl =>
    have hactive : c.activeInTable = 0 := by
      rw [activeInTable, hfresh.2]
      rfl
    exact GaugeRight.bounded (by rw [GaugeRight, hgauge, hactive]; rfl)
  | tail hrun hhappens ih =>
    have hprecedes := Precedes.happens hhappens
    exact (hhappens.gauge (tracks_of_happens hrun hfresh.tracks) hids hpoisoned).1
      (ih (hids.sublist hprecedes.ids.sublist) (hprecedes.poisoned hpoisoned))

/-- The gauge is never too low, and too high by no more than the jobs that were taken off the table
and have not ended and the jobs that were stopped.  Where it is right, it stays so in whatever
happens without a job being stopped, but for the cancellation of a job at work.  For this the ids of
all jobs must differ, and no call may have stopped with the table in its hands. -/
theorem gauge_of_happens (hfresh : c.Fresh) (hgauge : c.gauge = 0)
    (hrun : Relation.ReflTransGen Happens c c') (hids : (c'.jobs.map Job.id).Nodup)
    (hpoisoned : c'.poisoned = false) :
    (c'.activeJobs ≤ c'.gauge ∧ c'.gauge ≤ c'.activeJobs + c'.leaving + c'.stopped) ∧
      ∀ c'', Happens c' c'' → (c''.jobs.map Job.id).Nodup → c''.poisoned = false →
        c''.stopped = c'.stopped → c'.gauge = c'.activeJobs →
          (c''.gauge = c''.activeJobs ↔ ¬ CancelsWorking c' c'') := by
  have hactive {c : Coordinator} (hpoisoned : c.poisoned = false) :
      c.activeJobs = c.activeInTable := by
    rw [activeJobs, hpoisoned]
    rfl
  have htracks := tracks_of_happens hrun hfresh.tracks
  obtain ⟨hle, hge⟩ := bounded_of_happens hfresh hgauge hrun hids hpoisoned
  rw [hactive hpoisoned]
  refine ⟨⟨hle, hge⟩, fun c'' hhappens hids' hpoisoned' hstopped hright => ?_⟩
  rw [hactive hpoisoned']
  exact ⟨fun hright' hcancels => hcancels.not_right htracks hright hright',
    (hhappens.gauge htracks hids' hpoisoned').2 hright hstopped⟩

theorem gauge_of_happens_supersedingJob :
    unused.Fresh ∧ unused.gauge = 0 ∧ Relation.ReflTransGen Happens unused oneJob ∧
      (oneJob.jobs.map Job.id).Nodup ∧ oneJob.poisoned = false ∧
      (oneJob.activeJobs ≤ oneJob.gauge ∧
        oneJob.gauge ≤ oneJob.activeJobs + oneJob.leaving + oneJob.stopped) ∧
      (supersedingJob.gauge = supersedingJob.activeJobs ↔ ¬ CancelsWorking oneJob supersedingJob) := by
  have hfresh : unused.Fresh := ⟨rfl, rfl⟩
  have hrun : Relation.ReflTransGen Happens unused oneJob := .single happens_oneJob
  have hids : (oneJob.jobs.map Job.id).Nodup := List.nodup_singleton _
  obtain ⟨hbounds, hright⟩ := gauge_of_happens hfresh rfl hrun hids rfl
  have hids' : (supersedingJob.jobs.map Job.id).Nodup := by decide
  exact ⟨hfresh, rfl, hrun, hids, rfl, hbounds,
    hright _ happens_supersedingJob hids' rfl (by decide) (by decide)⟩

/-! ## A gauge that is too high -/

/-- The coordinator after the first attempt of a job, of which the builder made nothing. -/
def restingJob : Coordinator :=
  ({ unused with script := [.fail] }.startAs (.zero 8) baseBlock nextAttributes).after.settle
    (some baseBlock.hash)

/-- The job is cancelled, and everything is done that is due. -/
def cancelledJob : Coordinator := (restingJob.cancel (.zero 8)).2.settle (some baseBlock.hash)

/-- The gauge still counts a job that was cancelled while it rested. -/
theorem gauge_of_cancelledJob :
    { unused with script := [.fail] }.Fresh ∧
      Relation.ReflTransGen Happens { unused with script := [.fail] } cancelledJob ∧
      (restingJob.gauge = 1 ∧ restingJob.activeJobs = 1) ∧
      cancelledJob.gauge = 1 ∧ cancelledJob.activeJobs = 0 := by
  refine ⟨⟨rfl, rfl⟩, ?_, by decide, by decide⟩
  have hstart : Relation.ReflTransGen Happens { unused with script := [.fail] }
      ({ unused with script := [.fail] }.startAs (.zero 8) baseBlock nextAttributes).after :=
    .single (.startAs _ _ _ rfl)
  exact ((hstart.tail (.step (.settle _))).tail (.step (.cancel _))).tail (.step (.settle _))

end Coordinator

end ChainHead
