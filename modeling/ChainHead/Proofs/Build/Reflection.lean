import ChainHead.Proofs.Build.Patience
import ChainHead.Proofs.Build.Punctual
import ChainHead.Proofs.Build.Serving
import ChainHead.Proofs.Build.Turns

/-!
# Whatever happens to a coordinator happens in a workshop

A coordinator takes a turn of a job at once, while in a workshop anything may happen between two
steps of a loop.  Here it is shown that a workshop can do all that a coordinator does: whatever
happens to a coordinator, there is a run of a workshop that leaves the same table, the same time and
the same jobs (`Coordinator.exists_mirror`).  So what holds in every run of a workshop is also true
of coordinators.

A turn becomes an uninterrupted run of the loop of its job (`Coordinator.turn_is_run`), to which the
other benches do not matter.  For that the loop has to stand where the turn begins, and this is known
as long as the job waits for the turn (`Workshop.SeenAs`).  A loop sets its deadline in its first
step, and a coordinator when it starts the job; it is the same deadline, as the first turn is on
time.
-/

namespace ChainHead

/-! ## One loop on its own and in a workshop -/

namespace Job

variable {j j' : Job} {phase : Phase}

lemma inPhase_eq_of_inPhase_eq (h : j.inPhase .resting = j'.inPhase .resting) (phase : Phase) :
    j.inPhase phase = j'.inPhase phase := by
  have hphase : (j.inPhase .resting).inPhase phase = (j'.inPhase .resting).inPhase phase := by
    rw [h]
  exact hphase

namespace Loop

variable {l l' : Loop} {timing : Timing}

/-- The loops stand at the same point, with the same job but for its phase. -/
structure Like (l l' : Loop) : Prop where
  point : l.point = l'.point
  job : l.job.inPhase .resting = l'.job.inPhase .resting

/-- No loop looks at the phase of its job, or at what was counted. -/
lemma Like.step (h : l.Like l') (timing : Timing) (event : Event) :
    (l.step timing event).Like (l'.step timing event) := by
  obtain ⟨⟨id, parent, attributes, deadline, phase, iteration, best, cancelled, resolved⟩, point,
    calls, published, checks⟩ := l
  obtain ⟨⟨id', parent', attributes', deadline', phase', iteration', best', cancelled', resolved'⟩,
    point', calls', published', checks'⟩ := l'
  obtain ⟨hpoint, hjob⟩ := h
  cases hpoint
  cases hjob
  cases event with
  | cancel => exact ⟨rfl, rfl⟩
  | resolve => exact ⟨rfl, rfl⟩
  | answer outcome =>
    cases point with
    | inCall => cases outcome <;> exact ⟨rfl, rfl⟩
    | _ => exact ⟨rfl, rfl⟩
  | work head now =>
    cases point with
    | atStart | atCall | inCall | atPublish _ | ended | crashed => exact ⟨rfl, rfl⟩
    | _ =>
      -- where the loop reads something, both read the same
      simp only [Loop.step, work]
      split_ifs <;> exact ⟨rfl, rfl⟩

end Loop

end Job

namespace Workshop

variable {w : Workshop} {c : Coordinator} {k : Nat} {j j' : Job} {b b' : Bench}
  {l l' : Job.Loop} {id : PayloadId} {queue queue' : List Wakeup}

/-- The workshop with another job and another bench at a number. -/
def put (w : Workshop) (k : Nat) (j : Job) (b : Bench) : Workshop :=
  { w with
    coordinator := w.coordinator.modifyJob k fun _ => j
    benches := w.benches.set k b }

lemma run_cons (w : Workshop) (event : Event) (events : List Event) :
    w.run (event :: events) = (w.step event).run events := rfl

lemma run_append (w : Workshop) (events events' : List Event) :
    w.run (events ++ events') = (w.run events).run events' :=
  List.foldl_append

lemma put_self (hj : w.coordinator.jobs[k]? = some j) (hb : w.benches[k]? = some b) :
    w.put k j b = w := by
  obtain ⟨hlt, rfl⟩ := List.getElem?_eq_some_iff.1 hj
  obtain ⟨hlt', rfl⟩ := List.getElem?_eq_some_iff.1 hb
  unfold put Coordinator.modifyJob
  rw [← List.set_eq_modify, List.set_getElem_self, List.set_getElem_self]

lemma getElem?_jobs_put (hk : k < w.coordinator.jobs.length) :
    (w.put k j b).coordinator.jobs[k]? = some j := by
  show (w.coordinator.jobs.modify k _)[k]? = _
  rw [List.getElem?_modify_eq, List.getElem?_eq_getElem hk]
  rfl

lemma put_put (w : Workshop) (k : Nat) (j j' : Job) (b b' : Bench) :
    (w.put k j b).put k j' b' = w.put k j' b' := by
  unfold put Coordinator.modifyJob
  simp only [← List.set_eq_modify, List.set_set]

/-- An event of a loop changes the job and the bench of the loop, as it changes the loop. -/
lemma exists_stepLoop_eq_put (hj : w.coordinator.jobs[k]? = some j) (hb : w.benches[k]? = some b)
    (hlike : (b.loop j).Like l) (event : Job.Loop.Event) :
    ∃ j' b', w.stepLoop k event = w.put k j' b' ∧
      (b'.loop j').Like (l.step w.coordinator.timing event) := by
  have hstep := hlike.step w.coordinator.timing event
  generalize hl : (b.loop j).step w.coordinator.timing event = l₁ at hstep
  have hput : w.stepLoop k event =
      w.put k (l₁.job.inPhase l₁.point.phase) (b.note j event l₁.point) := by
    simp only [stepLoop, hj, hb, hl]
    rfl
  refine ⟨_, _, hput, ?_, hstep.job⟩
  rw [← hstep.point]
  unfold Bench.note
  split <;> rfl

/-- While nobody else acts, the workshop does what the loop does. -/
lemma exists_run_eq_put (hj : w.coordinator.jobs[k]? = some j) (hb : w.benches[k]? = some b)
    (hlike : (b.loop j).Like l)
    (hruns : l.Runs w.coordinator.timing w.head w.coordinator.now l') :
    ∃ events j' b', w.run events = w.put k j' b' ∧ (b'.loop j').Like l' := by
  induction hruns with
  | refl => exact ⟨[], j, b, (put_self hj hb).symm, hlike⟩
  | @tail l₁ _ _ hstep ih =>
    obtain ⟨events, j', b', hrun, hlike'⟩ := ih
    have hj' : (w.put k j' b').coordinator.jobs[k]? = some j' :=
      getElem?_jobs_put (List.getElem?_eq_some_iff.1 hj).1
    have hb' : (w.put k j' b').benches[k]? = some b' :=
      List.getElem?_set_self (List.getElem?_eq_some_iff.1 hb).1
    have hthen (event : Event) (happens : Job.Loop.Event)
        (hevent : (w.put k j' b').step event = (w.put k j' b').stepLoop k happens) :
        ∃ events j'' b'', w.run events = w.put k j'' b'' ∧
          (b''.loop j'').Like (l₁.step w.coordinator.timing happens) := by
      obtain ⟨j'', b'', hput, hlike''⟩ := exists_stepLoop_eq_put hj' hb' hlike' happens
      refine ⟨events ++ [event], j'', b'', ?_, hlike''⟩
      rw [run_append, hrun, run_cons, hevent, hput, put_put]
      rfl
    obtain rfl | ⟨outcome, rfl⟩ := hstep
    · exact hthen (.work k) _ rfl
    · exact hthen (.answer k outcome) _ rfl

/-! ## How a workshop mirrors a coordinator -/

/-- How a job of a coordinator is seen in a workshop: as the same job but for its phase, at a bench
where the loop has ended if the job has, and else stands where the job waits for its turns.  The
loop has yet to begin only if the job has. -/
structure SeenAs (queue : List Wakeup) (k : Nat) (j j' : Job) (b : Bench) : Prop where
  same : j'.inPhase j.phase = j
  finished : j.isFinished = true ↔ b.point = .ended ∨ b.point = .crashed
  begins : b.point = .atStart → j.IsNew
  awaits : ∀ wake ∈ queue, wake.job = k → b.point.Awaits wake.time j.phase

/-- The workshop has the table, the time and the jobs of the coordinator, of which these wait for
their turns. -/
structure Mirrors (w : Workshop) (c : Coordinator) (queue : List Wakeup) : Prop where
  timing : w.coordinator.timing = c.timing
  now : w.coordinator.now = c.now
  poisoned : w.coordinator.poisoned = c.poisoned
  table : w.coordinator.table = c.table
  length : w.coordinator.jobs.length = c.jobs.length
  queued : c.Queued queue
  seen : ∀ (k : Nat) (j j' : Job) (b : Bench), c.jobs[k]? = some j →
    w.coordinator.jobs[k]? = some j' → w.benches[k]? = some b → SeenAs queue k j j' b

lemma Mirrors.exists_seen (h : w.Mirrors c queue) (horderly : w.Orderly)
    (hj : c.jobs[k]? = some j) : ∃ j' b, w.coordinator.jobs[k]? = some j' ∧
      w.benches[k]? = some b ∧ SeenAs queue k j j' b := by
  have hlt : k < w.coordinator.jobs.length := h.length ▸ (List.getElem?_eq_some_iff.1 hj).1
  have hj' := List.getElem?_eq_getElem hlt
  have hb := List.getElem?_eq_getElem (horderly.length_benches ▸ hlt)
  exact ⟨_, _, hj', hb, h.seen k j _ _ hj hj' hb⟩

/-! ### Turns -/

section Turns

variable {point : Job.Point} {phase : Job.Phase} {wake : Wakeup} {head : Option Hash}

/-- A loop that stands where a turn has left its job stands where the next turn begins. -/
lemma awaits_of_shows {time : Nat} (h : point.Shows phase (some time)) :
    point.Awaits time phase := by
  cases h with
  | asleep => exact .inr ⟨time, Nat.le_refl _, rfl⟩
  | inCall => exact rfl

lemma not_atStart_of_shows {wake : Option Nat} (h : point.Shows phase wake) :
    point ≠ .atStart := by
  cases h <;> exact nofun

lemma finished_iff_of_shows {j : Job} {wake : Option Nat} (h : point.Shows j.phase wake) :
    j.isFinished = true ↔ point = .ended ∨ point = .crashed := by
  generalize hphase : j.phase = phase at h
  cases h <;> simp [Job.isFinished, hphase]

/-- After the turn the job waits for the next one that the turn asks for. -/
lemma seenAs_of_follows {turn : Job.Turn} (hfollows : l'.Follows turn) (hlike : (b.loop j').Like l')
    (hfresh : k ∉ queue.map Wakeup.job) :
    SeenAs (queue ++ turn.wake.toList.map (Wakeup.mk k)) k turn.job j' b := by
  have hshows := hfollows.point
  rw [← show b.point = l'.point from hlike.point] at hshows
  have hsame : j'.inPhase turn.job.phase = l'.job.inPhase turn.job.phase :=
    Job.inPhase_eq_of_inPhase_eq hlike.job _
  refine ⟨hsame.trans hfollows.job, finished_iff_of_shows hshows,
    fun hstart => absurd hstart (not_atStart_of_shows hshows), fun wake hwake hjob => ?_⟩
  obtain hold | hnew := List.mem_append.1 hwake
  · exact absurd (List.mem_map.2 ⟨wake, hold, hjob⟩) hfresh
  · obtain ⟨time, htime, rfl⟩ := List.mem_map.1 hnew
    rw [Option.mem_toList.1 htime] at hshows
    exact awaits_of_shows hshows

/-- The other jobs wait for the same turns as before. -/
lemma SeenAs.of_other {i : Nat} (h : SeenAs (wake :: queue) i j j' b) (hi : k ≠ i)
    (next : Option Nat) : SeenAs (queue ++ next.toList.map (Wakeup.mk k)) i j j' b := by
  refine ⟨h.same, h.finished, h.begins, fun wake' hwake hjob => ?_⟩
  obtain hold | hnew := List.mem_append.1 hwake
  · exact h.awaits wake' (List.mem_cons_of_mem _ hold) hjob
  · obtain ⟨time, -, rfl⟩ := List.mem_map.1 hnew
    exact absurd hjob hi

/-- The workshop does what the turn does, and no other bench changes. -/
lemma Mirrors.turn {due : List Wakeup} (h : w.Mirrors c (wake :: (due ++ c.wakeups)))
    (horderly : w.Orderly) (hhead : w.head = head) (htime : wake.time = c.now) :
    ∃ events, (w.run events).head = head ∧
      (w.run events).Mirrors (c.turn head wake.job)
        (due ++ (c.turn head wake.job).wakeups) := by
  obtain ⟨j, hj, -⟩ := Coordinator.isActive_iff.1 ((h.queued.mem_iff _).1 List.mem_cons_self)
  obtain ⟨j', b, hj', hb, hseen⟩ := h.exists_seen horderly hj
  have hawaits : b.point.Awaits c.now j.phase := htime ▸ hseen.awaits wake List.mem_cons_self rfl
  have hdeadline (hstart : b.point = .atStart) : j.deadline = c.now + c.timing.deadline :=
    htime ▸ h.queued.deadline wake List.mem_cons_self j hj (hseen.begins hstart)
  obtain ⟨turn, l', hruns, hfollows, hjobs, hwakeups, -⟩ :=
    @Coordinator.turn_is_run c head _ _ (b.loop j') hj hseen.same hawaits hdeadline
  rw [← h.timing, ← h.now, ← hhead] at hruns
  obtain ⟨events, j₂, b₂, hrun, hlike⟩ := exists_run_eq_put hj' hb ⟨rfl, rfl⟩ hruns
  have hworks : Coordinator.Works head c (c.turn head wake.job) := .turn c head wake.job
  refine ⟨events, hrun ▸ hhead, ?_⟩
  rw [hrun]
  refine ⟨h.timing.trans hworks.timing.symm, h.now.trans (Coordinator.now_turn c head _).symm,
    h.poisoned.trans hworks.poisoned.symm, h.table.trans hworks.table.symm, ?_,
    h.queued.turn head, fun i j₁ j₁' b₁ hj₁ hj₁' hb₁ => ?_⟩
  · show (w.coordinator.jobs.modify _ _).length = _
    rw [List.length_modify, hworks.length, h.length]
  have hb₁ : (w.benches.set wake.job b₂)[i]? = some b₁ := hb₁
  rw [hjobs] at hj₁
  rw [hwakeups, ← List.append_assoc]
  by_cases hi : wake.job = i
  · subst hi
    rw [List.getElem?_set_self (List.getElem?_eq_some_iff.1 hj).1] at hj₁
    rw [getElem?_jobs_put (List.getElem?_eq_some_iff.1 hj').1] at hj₁'
    rw [List.getElem?_set_self (List.getElem?_eq_some_iff.1 hb).1] at hb₁
    cases hj₁
    cases hj₁'
    cases hb₁
    -- the job waits for no other turn than the one it has
    have hfresh : wake.job ∉ (due ++ c.wakeups).map Wakeup.job :=
      (List.nodup_cons.1 (List.map_cons ▸ h.queued.nodup)).1
    exact seenAs_of_follows hfollows hlike hfresh
  · have hj₁' : (w.coordinator.jobs.modify wake.job _)[i]? = some j₁' := hj₁'
    rw [List.getElem?_set_ne hi] at hj₁ hb₁
    rw [List.getElem?_modify_ne _ _ hi] at hj₁'
    exact (h.seen i j₁ j₁' b₁ hj₁ hj₁' hb₁).of_other hi turn.wake

/-- So it does for one turn after the other. -/
lemma Mirrors.foldl_turn (due : List Wakeup) (h : w.Mirrors c (due ++ c.wakeups))
    (horderly : w.Orderly) (hhead : w.head = head) (htime : ∀ wake ∈ due, wake.time = c.now) :
    ∃ events, (w.run events).Mirrors ((due.map Wakeup.job).foldl (fun c k => c.turn head k) c)
      ((due.map Wakeup.job).foldl (fun c k => c.turn head k) c).wakeups := by
  induction due generalizing w c with
  | nil => exact ⟨[], h⟩
  | cons wake due ih =>
    obtain ⟨events, hhead', hmirrors⟩ :=
      h.turn horderly hhead (htime wake List.mem_cons_self)
    obtain ⟨events', hmirrors'⟩ := ih hmirrors (horderly.run events) hhead' fun wake' hwake' => by
      rw [Coordinator.now_turn]
      exact htime wake' (List.mem_cons_of_mem _ hwake')
    exact ⟨events ++ events', run_append w events events' ▸ hmirrors'⟩

end Turns

/-! ### Calls -/

namespace Mirrors

/-- Whatever else the coordinator holds is of no account. -/
lemma of_eq {c' : Coordinator} (h : w.Mirrors c queue) (htiming : c'.timing = c.timing)
    (hnow : c'.now = c.now) (hpoisoned : c'.poisoned = c.poisoned) (htable : c'.table = c.table)
    (hjobs : c'.jobs = c.jobs) : w.Mirrors c' queue where
  timing := h.timing.trans htiming.symm
  now := h.now.trans hnow.symm
  poisoned := h.poisoned.trans hpoisoned.symm
  table := h.table.trans htable.symm
  length := by rw [hjobs, h.length]
  queued := h.queued.of_eq htiming hjobs
  seen := by rw [hjobs]; exact h.seen

lemma of_perm (h : w.Mirrors c queue) (hperm : queue.Perm queue') : w.Mirrors c queue' where
  timing := h.timing
  now := h.now
  poisoned := h.poisoned
  table := h.table
  length := h.length
  queued := h.queued.of_perm hperm
  seen k j j' b hj hj' hb :=
    have hseen := h.seen k j j' b hj hj' hb
    ⟨hseen.same, hseen.finished, hseen.begins,
      fun wake hwake => hseen.awaits wake (hperm.mem_iff.2 hwake)⟩

lemma lookup?_eq (h : w.Mirrors c queue) (id : PayloadId) :
    w.coordinator.lookup? id = c.lookup? id := by
  simp only [Coordinator.lookup?, h.table, h.poisoned]

/-- A flag is set on both sides. -/
lemma modifyJob (h : w.Mirrors c queue) (k : Nat) {f : Job → Job}
    (hflags : ∀ j, ∃ cancelled resolved, f j = { j with cancelled, resolved })
    (hf : ∀ (j : Job) (phase : Job.Phase), (f j).inPhase phase = f (j.inPhase phase)) :
    (w.withCoordinator (w.coordinator.modifyJob k f)).Mirrors (c.modifyJob k f) queue := by
  have hkept (j : Job) : (f j).phase = j.phase ∧ (f j).iteration = j.iteration := by
    obtain ⟨cancelled, resolved, hj⟩ := hflags j
    simp [hj]
  refine ⟨h.timing, h.now, h.poisoned, h.table, ?_, h.queued.modifyJob k hflags,
    fun i j j' b hj hj' hb => ?_⟩
  · show (w.coordinator.jobs.modify k f).length = (c.jobs.modify k f).length
    rw [List.length_modify, List.length_modify, h.length]
  have hj : (c.jobs.modify k f)[i]? = some j := hj
  have hj' : (w.coordinator.jobs.modify k f)[i]? = some j' := hj'
  rw [List.getElem?_modify, Option.map_eq_map, Option.map_eq_some_iff] at hj hj'
  obtain ⟨j₀, hj₀, rfl⟩ := hj
  obtain ⟨j₀', hj₀', rfl⟩ := hj'
  obtain ⟨hsame, hfinished, hbegins, hawaits⟩ := h.seen i j₀ j₀' b hj₀ hj₀' hb
  obtain ⟨hphase, hiteration⟩ := hkept j₀
  split_ifs
  · refine ⟨?_, ?_, fun hstart => ?_, fun wake hwake hjob => ?_⟩
    · rw [hphase, hf, hsame]
    · rw [Job.isFinished, hphase]
      exact hfinished
    · rw [Job.IsNew, hphase, hiteration]
      exact hbegins hstart
    · rw [hphase]
      exact hawaits wake hwake hjob
  · exact ⟨hsame, hfinished, hbegins, hawaits⟩

lemma resolve (h : w.Mirrors c queue) (k : Nat) :
    (w.withCoordinator (w.coordinator.resolve k)).Mirrors (c.resolve k) queue :=
  h.modifyJob k (f := fun j => { j with resolved := true }) (fun j => ⟨j.cancelled, true, rfl⟩)
    fun _ _ => rfl

lemma remove (h : w.Mirrors c queue) (id : PayloadId) :
    (w.withCoordinator (w.coordinator.remove id)).Mirrors (c.remove id) queue := by
  unfold Coordinator.remove
  rw [h.table]
  split
  · exact h
  next entry _ =>
    obtain ⟨htiming, hnow, hpoisoned, -, hlength, hqueued, hseen⟩ :=
      h.modifyJob entry.job (f := fun j => { j with cancelled := true })
        (fun j => ⟨true, j.resolved, rfl⟩) fun _ _ => rfl
    exact ⟨htiming, hnow, hpoisoned, rfl, hlength, hqueued.of_eq rfl rfl, hseen⟩

lemma foldl_remove (h : w.Mirrors c queue) (ids : List PayloadId) :
    (w.withCoordinator (ids.foldl Coordinator.remove w.coordinator)).Mirrors
      (ids.foldl Coordinator.remove c) queue := by
  induction ids generalizing w c with
  | nil => exact h
  | cons id ids ih => exact ih (h.remove id)

lemma makeRoom (h : w.Mirrors c queue) (parent : Hash) :
    (w.withCoordinator (w.coordinator.makeRoom parent).2).Mirrors (c.makeRoom parent).2 queue := by
  have hsuperseded := h.foldl_remove (c.table.superseded? parent).toList
  unfold Coordinator.makeRoom
  dsimp only
  rw [h.table]
  have htable := hsuperseded.table
  rw [show ((c.table.superseded? parent).toList.foldl Coordinator.remove w.coordinator).table = _
    from htable]
  exact hsuperseded.foldl_remove _

/-- The new job stands at the beginning of its loop, and its first turn is due. -/
lemma place (h : w.Mirrors c c.wakeups)
    (hbenches : w.benches.length = w.coordinator.jobs.length) (id : PayloadId) (parent : Block)
    (a : PayloadAttributes) (commissions : List Commission) :
    Mirrors { w with
      coordinator := w.coordinator.place id parent a
      benches := w.benches ++ [{}]
      commissions } (c.place id parent a) (c.place id parent a).wakeups := by
  have htable : (w.coordinator.place id parent a).table = (c.place id parent a).table := by
    show w.coordinator.table.insert id ⟨_, _⟩ = c.table.insert id ⟨_, _⟩
    rw [h.table, h.length]
  have hqueued : (c.place id parent a).Scheduled :=
    Coordinator.Scheduled.place h.queued id parent a
  refine ⟨h.timing, h.now, h.poisoned, htable, ?_, hqueued, fun k j j' b hj hj' hb => ?_⟩
  · show (w.coordinator.jobs ++ [_]).length = (c.jobs ++ [_]).length
    rw [List.length_append, List.length_append, h.length]
    rfl
  have hj : (c.jobs ++ [_])[k]? = some j := hj
  have hj' : (w.coordinator.jobs ++ [_])[k]? = some j' := hj'
  have hb : (w.benches ++ [({} : Bench)])[k]? = some b := hb
  show SeenAs (c.wakeups ++ [⟨c.jobs.length, c.now⟩]) k j j' b
  by_cases hk : k < c.jobs.length
  · rw [List.getElem?_append_left hk] at hj
    rw [List.getElem?_append_left (h.length ▸ hk)] at hj'
    rw [List.getElem?_append_left (hbenches ▸ h.length ▸ hk)] at hb
    obtain ⟨hsame, hfinished, hbegins, hawaits⟩ := h.seen k j j' b hj hj' hb
    refine ⟨hsame, hfinished, hbegins, fun wake hwake hjob => ?_⟩
    obtain hold | hnew := List.mem_append.1 hwake
    · exact hawaits wake hold hjob
    · rw [List.mem_singleton.1 hnew] at hjob
      exact absurd hjob.symm (Nat.ne_of_lt hk)
  · -- the new job
    obtain rfl : k = c.jobs.length := by
      have hlt := (List.getElem?_eq_some_iff.1 hj).1
      rw [List.length_append, List.length_singleton] at hlt
      omega
    rw [List.getElem?_concat_length] at hj
    rw [← h.length, List.getElem?_concat_length] at hj'
    rw [← h.length, ← hbenches, List.getElem?_concat_length] at hb
    cases hj
    cases hj'
    cases hb
    refine ⟨?_, by simp [Job.isFinished], fun _ => ⟨rfl, rfl⟩, fun wake hwake hjob => ?_⟩
    · unfold Job.inPhase
      dsimp only
      rw [h.now, h.timing]
    · obtain hold | hnew := List.mem_append.1 hwake
      · exact absurd hjob (Nat.ne_of_lt (h.queued.lt_length hold))
      · exact .inl rfl

lemma startAs (h : w.Mirrors c c.wakeups) (horderly : w.Orderly) {parent : Block}
    (hfree : (c.makeRoom parent.hash).2.table.entries.get? id = none) (a : PayloadAttributes) :
    (w.step (.start id parent a)).Mirrors (c.startAs id parent a).after
      (c.startAs id parent a).after.wakeups := by
  have hroom := h.makeRoom parent.hash
  have hpoisoned : c.poisoned = false := h.poisoned ▸ horderly.unpoisoned
  obtain ⟨jobs, table, hmade, -⟩ := c.makeRoom_eq_with parent.hash
  obtain ⟨jobs', table', hmade', hlength'⟩ := w.coordinator.makeRoom_eq_with parent.hash
  have hafter : (c.startAs id parent a).after = (c.makeRoom parent.hash).2.place id parent a := by
    simp only [Coordinator.startAs, hpoisoned, Bool.false_eq_true, if_false]
  have hafter' : (w.coordinator.startAs id parent a).after =
      (w.coordinator.makeRoom parent.hash).2.place id parent a := by
    simp only [Coordinator.startAs, horderly.unpoisoned, Bool.false_eq_true, if_false]
  have hfree' : (w.coordinator.makeRoom parent.hash).2.table.entries.get? id = none := by
    rw [show (w.coordinator.makeRoom parent.hash).2.table = _ from hroom.table]
    exact hfree
  have hstep : w.step (.start id parent a) = w.started id parent a := by
    simp only [Workshop.step, horderly.unpoisoned, hfree']
    rfl
  rw [hstep, started, hafter, hafter']
  have hwakeups : c.wakeups = (c.makeRoom parent.hash).2.wakeups := by rw [hmade]
  rw [hwakeups] at hroom
  refine hroom.place ?_ id parent a _
  show w.benches.length = (w.coordinator.makeRoom parent.hash).2.jobs.length
  rw [hmade', horderly.length_benches]
  exact hlength'.symm

lemma cancel (h : w.Mirrors c c.wakeups) (id : PayloadId) :
    (w.step (.cancel id)).Mirrors (c.cancel id).2 (c.cancel id).2.wakeups := by
  show (w.withCoordinator (w.coordinator.cancel id).2).Mirrors _ _
  obtain ⟨jobs, table, hcancel, -⟩ := c.cancel_eq_with id
  have hwakeups : (c.cancel id).2.wakeups = c.wakeups := by rw [hcancel]
  rw [hwakeups]
  unfold Coordinator.cancel
  rw [h.lookup?_eq]
  split
  · exact h.remove id
  · exact h

/-! ### Through time -/

variable {head : Option Hash} {c' : Coordinator}

lemma runDue (h : w.Mirrors c c.wakeups) (horderly : w.Orderly) (htimely : c.Timely)
    (head : Option Hash) : ∃ events, (w.run events).Mirrors (c.runDue head) (c.runDue head).wakeups := by
  have hsplit := c.perm_wakeups
  have hmoved : (w.step (.move head)).Mirrors
      { c with wakeups := c.wakeups.filter fun w => c.now < w.time }
      (c.wakeups.filter (fun w => w.time ≤ c.now) ++
        c.wakeups.filter fun w => c.now < w.time) := by
    obtain ⟨htiming, hnow, hpoisoned, htable, hlength, hqueued, hseen⟩ :=
      h.of_perm hsplit
    exact ⟨htiming, hnow, hpoisoned, htable, hlength, hqueued.of_eq rfl rfl, hseen⟩
  have htime : ∀ wake ∈ c.wakeups.filter (fun w => w.time ≤ c.now), wake.time = c.now := by
    intro wake hwake
    obtain ⟨hmem, hdue⟩ := List.mem_filter.1 hwake
    exact htimely.time_eq hmem (by simpa using hdue)
  obtain ⟨events, hmirrors⟩ := hmoved.foldl_turn _ (horderly.step (.move head)) rfl htime
  exact ⟨.move head :: events, hmirrors⟩

/-- Whatever happens through time happens in the workshop. -/
theorem beats (h : w.Mirrors c c.wakeups) (horderly : w.Orderly) (htimely : c.Timely)
    (hbeats : Coordinator.Beats head c c') :
    ∃ events, (w.run events).Mirrors c' c'.wakeups := by
  induction hbeats with
  | refl => exact ⟨[], h⟩
  | tail hbefore hbeat ih =>
    obtain ⟨events, hmirrors⟩ := ih
    have horderly' := horderly.run events
    suffices hnext : ∃ events', ((w.run events).run events').Mirrors _ _ by
      obtain ⟨events', hmirrors'⟩ := hnext
      exact ⟨events ++ events', run_append w events events' ▸ hmirrors'⟩
    cases hbeat with
    | runDue => exact hmirrors.runDue horderly' (Coordinator.Beats.timely hbefore htimely) head
    | @resolve id k hid =>
      obtain ⟨htiming, hnow, hpoisoned, htable, hlength, hqueued, hseen⟩ := hmirrors.resolve k
      refine ⟨[.retrieve id], ?_⟩
      show ((w.run events).withCoordinator (requested (w.run events).coordinator id)).Mirrors _ _
      unfold requested
      rw [hmirrors.lookup?_eq, hid]
      exact ⟨htiming, hnow, hpoisoned, htable, hlength, hqueued, hseen⟩
    | tell fetches => exact ⟨[], hmirrors.of_eq rfl rfl rfl rfl rfl⟩
    | @wait now hnow _ =>
      refine ⟨[.pass (now - (w.run events).coordinator.now)], ?_⟩
      obtain ⟨htiming, hsame, hpoisoned, htable, hlength, hqueued, hseen⟩ := hmirrors
      refine ⟨htiming, ?_, hpoisoned, htable, hlength, hqueued.of_eq rfl rfl, hseen⟩
      show (w.run events).coordinator.now + (now - (w.run events).coordinator.now) = now
      omega

end Mirrors

end Workshop

namespace Coordinator

variable {c c' : Coordinator} {w : Workshop} {id : PayloadId} {k : Nat}

/-! ## Whatever happens -/

/-- Something happens in which the clock does not go back, and no call stops with the table in its
hands. -/
structure Proceeds (c c' : Coordinator) : Prop where
  happens : Happens c c'
  now_le : c.now ≤ c'.now
  unpoisoned : c'.poisoned = false

lemma Proceeds.exists_mirror (hproceeds : Proceeds c c') (htracks : c.Tracks)
    (htimely : c.Timely) (h : w.Mirrors c c.wakeups) (horderly : w.Orderly) :
    ∃ events, (w.run events).Mirrors c' c'.wakeups := by
  obtain ⟨hhappens, hnow, hpoisoned'⟩ := hproceeds
  have hpoisoned : c.poisoned = false := h.poisoned ▸ horderly.unpoisoned
  cases hhappens with
  | startAs id parent a hfree => exact ⟨[.start id parent a], h.startAs horderly hfree a⟩
  | step hstep =>
    cases hstep with
    | start parent a =>
      have hfree := get?_draw_nextFree (htracks.makeRoom parent.hash).size_le
      exact ⟨[.start _ parent a], (h.startAs horderly hfree a).of_eq rfl rfl rfl rfl rfl⟩
    | startNowhere parent =>
      -- the table would be poisoned
      simp [startNowhere, hpoisoned] at hpoisoned'
    | cancel id => exact ⟨[.cancel id], h.cancel id⟩
    | retrieve head id => exact h.beats horderly htimely (.of_waits (.retrieve c head id))
    | ask id => exact ⟨[], h.of_eq rfl rfl rfl rfl rfl⟩
    | join head fetch => exact h.beats horderly htimely (.of_waits (.join c head fetch))
    | settle head => exact h.beats horderly htimely (.settle c head)
    | runUntil head limit =>
      rw [now_runUntil] at hnow
      exact h.beats horderly htimely (.runUntil htimely hnow head)
    | clearJournal => exact ⟨[], h.of_eq rfl rfl rfl rfl rfl⟩

/-- The workshop that has just been opened for the coordinator. -/
def workshop (c : Coordinator) : Workshop :=
  { coordinator := { c with fetches := [] }, head := none }

lemma Fresh.workshop (h : c.Fresh) (hpoisoned : c.poisoned = false) : c.workshop.Fresh :=
  ⟨h, hpoisoned, rfl, rfl, rfl⟩

/-- Whatever happens to a coordinator, a workshop can do it as well. -/
theorem exists_mirror (hfresh : c.Fresh) (hwakeups : c.wakeups = [])
    (hpoisoned : c.poisoned = false) (hrun : Relation.ReflTransGen Proceeds c c') :
    ∃ events, (c.workshop.run events).Mirrors c' c'.wakeups := by
  have horderly := (hfresh.workshop hpoisoned).orderly
  have hall : c'.Tracks ∧ c'.Timely ∧
      ∃ events, (c.workshop.run events).Mirrors c' c'.wakeups := by
    induction hrun with
    | refl =>
      refine ⟨hfresh.tracks, by simp [Timely, hwakeups], [], rfl, rfl, rfl, rfl, rfl,
        hfresh.scheduled hwakeups, ?_⟩
      intro k j j' b hj
      simp [hfresh.1] at hj
    | tail _ hproceeds ih =>
      obtain ⟨htracks, htimely, events, hmirrors⟩ := ih
      obtain ⟨events', hmirrors'⟩ :=
        hproceeds.exists_mirror htracks htimely hmirrors (horderly.run events)
      exact ⟨hproceeds.happens.tracks htracks,
        timely_of_happens (.single hproceeds.happens) htimely, events ++ events',
        Workshop.run_append c.workshop events events' ▸ hmirrors'⟩
  exact hall.2.2

/-! ## What a call to fetch a payload gives -/

/-- The answer is the last payload that was published at the bench, and the builder has made it; or
nothing was published there, and the loop has ended. -/
inductive Answer (o : Commission) (b : Bench) : Option BuiltPayload → Prop where
  | payload {p : BuiltPayload} (hvouches : b.Vouches o p) : Answer o b (some p)
  | nothing (hpublished : b.published = []) (hend : b.point = .ended ∨ b.point = .crashed) :
      Answer o b none

lemma Answer.of_seen {o : Commission} {b : Bench} {j j' : Job} {queue : List Wakeup}
    (hkeeps : b.Keeps o j') (hseen : Workshop.SeenAs queue k j j' b)
    (hfinished : j.best = none → j.isFinished = true) : Answer o b j.best := by
  have hbest : j.best = b.published.getLast? := by
    rw [← hkeeps.best_eq, ← hseen.same]
    rfl
  cases hanswer : j.best with
  | some p => exact .payload (hkeeps.vouches (hbest ▸ hanswer))
  | none =>
    exact .nothing (List.getLast?_eq_none_iff.1 (hbest ▸ hanswer))
      (hseen.finished.1 (hfinished hanswer))

/-- After whatever has happened, whoever asks for a payload under an id in the table is answered
from the bench of the job that was last started under this id. -/
theorem retrieve_answer (hfresh : c.Fresh) (hwakeups : c.wakeups = [])
    (hpoisoned : c.poisoned = false) (hrun : Relation.ReflTransGen Proceeds c c')
    (hid : c'.lookup? id = some k) (head : Option Hash) :
    ∃ events o b,
      (c.workshop.run events).Mirrors (c'.retrieve head id).2 (c'.retrieve head id).2.wakeups ∧
      (c.workshop.run events).LastStarted id k o ∧
      (c.workshop.run events).benches[k]? = some b ∧ Answer o b (c'.retrieve head id).1 := by
  have hhappens : Relation.ReflTransGen Happens c c' :=
    Relation.ReflTransGen.mono (fun _ _ => Proceeds.happens) _ _ hrun
  obtain ⟨hanswer, hnone⟩ := retrieve_answers hfresh hwakeups hhappens hid head
  obtain ⟨before, hbefore⟩ := exists_mirror hfresh hwakeups hpoisoned hrun
  have horderly := (hfresh.workshop hpoisoned).orderly
  have htimely := timely_of_happens hhappens (by simp [Timely, hwakeups])
  obtain ⟨events, hmirrors⟩ :=
    hbefore.beats (horderly.run before) htimely (.of_waits (.retrieve c' head id))
  rw [← Workshop.run_append] at hmirrors
  replace horderly := horderly.run (before ++ events)
  generalize before ++ events = events at hmirrors horderly
  have hworks := (Moves.retrieve c' head id).works
  have hlookup : (c.workshop.run events).coordinator.lookup? id = some k := by
    rw [hmirrors.lookup?_eq, ← hid]
    simp only [lookup?, hworks.table, hworks.poisoned]
  generalize c'.retrieve head id = result at *
  obtain ⟨o, hlast⟩ := horderly.lastStarted hlookup
  have hlt : k < result.2.jobs.length := by
    have hcommission := (List.getElem?_eq_some_iff.1 hlast.commission).1
    rwa [horderly.length_commissions, hmirrors.length] at hcommission
  have hj := List.getElem?_eq_getElem hlt
  obtain ⟨j', b, hj', hb, hseen⟩ := hmirrors.exists_seen horderly hj
  refine ⟨events, o, b, hmirrors, hlast, hb, ?_⟩
  rw [hanswer, best?, hj, Option.bind_some] at hnone ⊢
  refine .of_seen (horderly.keeps k o j' b hlast.commission hj' hb) hseen fun hbest => ?_
  simpa [isActive, hj] using hnone hbest

end Coordinator

end ChainHead
