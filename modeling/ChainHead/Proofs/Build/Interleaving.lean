import ChainHead.Proofs.Build.Bookkeeping
import ChainHead.Proofs.Build.Loop

/-!
# A job that is told to stop, among callers

Whoever calls the coordinator while the loop of a job runs can do no more to the job than set its
flags (`Coordinator.Marks`).  So what is said of one loop under any events holds of the loop among
callers (`Scene.exists_run`): once the payload of the job was asked for, there is at most one more
call and one more payload, and once the job is off the table, no round that begins after that calls
the builder (`Scene.job_stops`).
-/

namespace ChainHead

/-! ## Taking a job off the table -/

namespace Coordinator

variable {c : Coordinator} {k : Nat} {id : PayloadId}

/-- An entry of the table names the job. -/
def InTable (k : Nat) (c : Coordinator) : Prop :=
  ∃ id entry, c.table.entries.get? id = some entry ∧ entry.job = k

/-- The job is in the table or bears the mark of cancellation. -/
def InTableOrCancelled (k : Nat) (c : Coordinator) : Prop :=
  ∃ j, c.jobs[k]? = some j ∧ (j.cancelled = true ∨ c.InTable k)

namespace InTableOrCancelled

lemma remove (h : c.InTableOrCancelled k) (id : PayloadId) :
    (c.remove id).InTableOrCancelled k := by
  obtain ⟨j, hj, hflag⟩ := h
  obtain ⟨cancelled, resolved, hj', hkept, -⟩ := (Marks.remove c id (k := k)).job j hj
  obtain hcancelled | ⟨other, entry, hentry, hjob⟩ := hflag
  · exact ⟨_, hj', .inl (hkept hcancelled)⟩
  by_cases hsame : other = id
  · -- its own entry is removed, and with it goes the mark
    subst hsame
    refine ⟨{ j with cancelled := true }, ?_, .inl rfl⟩
    simp only [Coordinator.remove, hentry]
    show (c.jobs.modify entry.job _)[k]? = _
    rw [List.getElem?_modify, hj, hjob]
    simp
  · refine ⟨_, hj', .inr ⟨other, entry, ?_, hjob⟩⟩
    rw [Tracks.table_remove, JobTable.erase_entries, Assoc.get?_erase, if_neg hsame, hentry]

lemma makeRoom (h : c.InTableOrCancelled k) (parent : Hash) :
    (c.makeRoom parent).2.InTableOrCancelled k := by
  have hfold {c : Coordinator} (hc : c.InTableOrCancelled k) (ids : List PayloadId) :
      (ids.foldl Coordinator.remove c).InTableOrCancelled k :=
    ids.foldlRecOn _ hc fun _ hc id _ => hc.remove id
  exact hfold (hfold h _) _

lemma startAs (h : c.InTableOrCancelled k) {parent : Block}
    (hfree : (c.makeRoom parent.hash).2.table.entries.get? id = none) (a : PayloadAttributes) :
    (c.startAs id parent a).after.InTableOrCancelled k := by
  unfold Coordinator.startAs
  dsimp only
  split_ifs
  · exact h
  · obtain ⟨j, hj, hflag⟩ := h.makeRoom parent.hash
    obtain ⟨cancelled, resolved, hj', hkept, -⟩ :=
      (Marks.place (c.makeRoom parent.hash).2 id parent a (k := k)).job j hj
    refine ⟨_, hj', hflag.imp hkept ?_⟩
    rintro ⟨other, entry, hentry, hjob⟩
    refine ⟨other, entry, ?_, hjob⟩
    have hne : other ≠ id := by
      rintro rfl
      cases hfree.symm.trans hentry
    show ((c.makeRoom parent.hash).2.table.entries.insert id _).get? other = _
    rw [Assoc.get?_insert, if_neg hne, hentry]

lemma cancel (h : c.InTableOrCancelled k) (id : PayloadId) :
    (c.cancel id).2.InTableOrCancelled k := by
  unfold Coordinator.cancel
  split
  · exact h.remove id
  · exact h

end InTableOrCancelled

end Coordinator

/-! ## The loop among callers -/

namespace Job.Loop

variable {timing : Timing} {l : Loop}

lemma run_append (l : Loop) (events events' : List Event) :
    l.run timing (events ++ events') = (l.run timing events).run timing events' :=
  List.foldl_append

/-- The loop with flags set that were not set before comes of events that set them. -/
lemma exists_run_marks {cancelled resolved : Bool} (hcancelled : l.job.cancelled = true → cancelled)
    (hresolved : l.job.resolved = true → resolved) :
    ∃ events, events.countP Event.isWork = 0 ∧
      l.run timing events = { l with job := { l.job with cancelled, resolved } } := by
  obtain ⟨job, point, calls, published, checks⟩ := l
  have hcancelled : job.cancelled = true → cancelled = true := hcancelled
  have hresolved : job.resolved = true → resolved = true := hresolved
  have hcancel : cancelled = true ∨ cancelled = job.cancelled := by
    cases hflag : job.cancelled with
    | false => cases cancelled <;> simp
    | true => exact .inl (hcancelled hflag)
  have hresolve : resolved = true ∨ resolved = job.resolved := by
    cases hflag : job.resolved with
    | false => cases resolved <;> simp
    | true => exact .inl (hresolved hflag)
  obtain rfl | rfl := hcancel <;> obtain rfl | rfl := hresolve
  · exact ⟨[.cancel, .resolve], rfl, rfl⟩
  · exact ⟨[.cancel], rfl, rfl⟩
  · exact ⟨[.resolve], rfl, rfl⟩
  · exact ⟨[], rfl, rfl⟩

end Job.Loop

namespace Scene

variable {s : Scene} {l : Job.Loop} {events : List Event}

/-- Whether an event is a step of the loop. -/
def Event.isWork : Event → Bool
  | .work => true
  | _ => false

lemma run_cons (s : Scene) (event : Event) (events : List Event) :
    s.run (event :: events) = (s.step event).run events := rfl

/-- The scene shows the loop. -/
lemma loop?_eq_some_iff :
    s.loop? = some l ↔ s.coordinator.jobs[s.number]? = some l.job ∧ s.point = l.point ∧
      s.calls = l.calls ∧ s.published = l.published ∧ s.checks = l.checks := by
  rw [loop?, Option.map_eq_some_iff]
  constructor
  · rintro ⟨j, hj, rfl⟩
    exact ⟨hj, rfl, rfl, rfl, rfl⟩
  · rintro ⟨hj, hpoint, hcalls, hpublished, hchecks⟩
    exact ⟨l.job, hj, by rw [hpoint, hcalls, hpublished, hchecks]⟩

lemma loop?_stepLoop (h : s.loop? = some l) (event : Job.Loop.Event) :
    (s.stepLoop event).loop? = some (l.step s.coordinator.timing event) := by
  obtain ⟨hj, -⟩ := loop?_eq_some_iff.1 h
  simp only [stepLoop, h]
  show ((s.coordinator.jobs.modify s.number _)[s.number]?).map _ = _
  rw [List.getElem?_modify, hj]
  simp [put]

lemma timing_stepLoop (s : Scene) (event : Job.Loop.Event) :
    (s.stepLoop event).coordinator.timing = s.coordinator.timing := by
  unfold stepLoop
  split <;> rfl

lemma marks_retrieved {k : Nat} (c : Coordinator) (id : PayloadId) :
    Coordinator.Marks k c (retrieved c id) := by
  unfold retrieved
  split
  · exact .resolve c _
  · exact .of_eq rfl rfl rfl

/-- Calls reach the loop as events that set flags. -/
lemma exists_run_of_marks (h : s.loop? = some l) {c : Coordinator}
    (hmarks : Coordinator.Marks s.number s.coordinator c) :
    ∃ events, events.countP Job.Loop.Event.isWork = 0 ∧
      { s with coordinator := c }.loop? = some (l.run s.coordinator.timing events) := by
  obtain ⟨hj, hshows⟩ := loop?_eq_some_iff.1 h
  obtain ⟨cancelled, resolved, hj', hcancelled, hresolved⟩ := hmarks.job l.job hj
  obtain ⟨events, hworks, hrun⟩ := Job.Loop.exists_run_marks hcancelled hresolved
  exact ⟨events, hworks, hrun ▸ loop?_eq_some_iff.2 ⟨hj', hshows⟩⟩

/-- What an event does to the loop is what some events of the loop alone do. -/
lemma exists_run_step (h : s.loop? = some l) (event : Event) :
    ∃ events, events.countP Job.Loop.Event.isWork = (if event.isWork then 1 else 0) ∧
      (s.step event).loop? = some (l.run s.coordinator.timing events) ∧
      (s.step event).coordinator.timing = s.coordinator.timing := by
  have hcall {c : Coordinator} (hmarks : Coordinator.Marks s.number s.coordinator c) :
      ∃ events, events.countP Job.Loop.Event.isWork = 0 ∧
        { s with coordinator := c }.loop? = some (l.run s.coordinator.timing events) ∧
        c.timing = s.coordinator.timing := by
    obtain ⟨events, hworks, hrun⟩ := exists_run_of_marks h hmarks
    exact ⟨events, hworks, hrun, hmarks.timing⟩
  cases event with
  | work =>
    exact ⟨[.work s.head s.coordinator.now], rfl, loop?_stepLoop h _, timing_stepLoop s _⟩
  | answer outcome => exact ⟨[.answer outcome], rfl, loop?_stepLoop h _, timing_stepLoop s _⟩
  | retrieve id => exact hcall (marks_retrieved _ id)
  | cancel id => exact hcall (.cancel _ id)
  | start id parent a =>
    by_cases hfree : ((s.coordinator.makeRoom parent.hash).2.table.entries.get? id).isNone
    · simp only [step, if_pos hfree]
      exact hcall (.startAs _ id parent a)
    · simp only [step, if_neg hfree]
      exact ⟨[], rfl, h, trivial⟩
  | move head => exact ⟨[], rfl, h, rfl⟩
  | pass ms => exact ⟨[], rfl, h, rfl⟩

/-- So whatever happens among callers happens to the loop alone. -/
theorem exists_run (h : s.loop? = some l) (events : List Event) :
    ∃ events', events'.countP Job.Loop.Event.isWork = events.countP Event.isWork ∧
      (s.run events).loop? = some (l.run s.coordinator.timing events') := by
  induction events generalizing s l with
  | nil => exact ⟨[], rfl, h⟩
  | cons event events ih =>
    obtain ⟨before, hbefore, hstep, htiming⟩ := exists_run_step h event
    obtain ⟨after, hafter, hrun⟩ := ih hstep
    refine ⟨before ++ after, ?_, ?_⟩
    · rw [List.countP_append, hbefore, hafter, List.countP_cons]
      omega
    · rw [run_cons, hrun, htiming, Job.Loop.run_append]

/-! ## A loop that was told to stop -/

/-- The loop is in a call of the builder, or it has a payload from it in its hands. -/
def InCall (s : Scene) : Prop := s.point.InCall

/-- The job has published a payload. -/
def HasPayload (s : Scene) : Prop := ∃ j, s.coordinator.jobs[s.number]? = some j ∧ j.best.isSome

/-- The table has the job. -/
def InTable (s : Scene) : Prop := s.coordinator.InTable s.number

/-- Whatever happens, the loop does not call the builder or publish any more. -/
def IsIdle (s : Scene) : Prop :=
  ∀ events, (s.run events).calls = s.calls ∧ (s.run events).published = s.published

/-- The loop does not call the builder or publish any more, and it ends at its next check, for which
three steps are enough. -/
structure WindsDown (s : Scene) : Prop where
  idle : s.IsIdle
  check : ∀ events, s.checks < (s.run events).checks → (s.run events).point = .ended
  ends : s.point = .atCancelled → ∀ events, 3 ≤ events.countP Event.isWork →
    (s.run events).point = .ended

/-- From the one moment to the other there was at most one call and at most one payload, and where
there was one, or there is a payload and no check behind which a call comes, the loop winds down as
soon as it is in no call. -/
structure AtMostOnceMore (asked later : Scene) : Prop where
  calls : later.calls ≤ asked.calls + 1
  published : later.published ≤ asked.published + 1
  afterwards : asked.calls < later.calls ∨ asked.published < later.published → ¬ later.InCall →
    later.WindsDown
  payload : later.HasPayload → later.point ≠ .atHead → later.point ≠ .atCall → ¬ later.InCall →
    later.WindsDown

/-- A loop that was asked for its payload and has nothing left winds down. -/
lemma windsDown_of_payloadsLeft (h : s.loop? = some l) (hresolved : l.job.resolved = true)
    (hspent : l.payloadsLeft = 0) : s.WindsDown := by
  have hspends (events : List Event) : ∃ l', (s.run events).loop? = some l' ∧ l.Spends l' := by
    obtain ⟨events', -, hrun⟩ := exists_run h events
    exact ⟨_, hrun, Job.Loop.spends_run hresolved _ events'⟩
  have hno_call : l.callsLeft = 0 := Nat.le_zero.1 (hspent ▸ l.callsLeft_le_payloadsLeft)
  obtain ⟨-, hpoint, hcalls, hpublished, hchecks⟩ := loop?_eq_some_iff.1 h
  refine ⟨fun events => ?_, fun events hmore => ?_, fun hstart events hworks => ?_⟩
  · obtain ⟨l', hrun, hspend⟩ := hspends events
    obtain ⟨-, -, hcalls', hpublished', -⟩ := loop?_eq_some_iff.1 hrun
    have hfewer := hspend.calls
    have hfewer' := hspend.published
    have hmore := hspend.calls_le
    have hmore' := hspend.published_le
    exact ⟨by omega, by omega⟩
  · obtain ⟨l', hrun, hspend⟩ := hspends events
    obtain ⟨-, hpoint', -, -, hchecks'⟩ := loop?_eq_some_iff.1 hrun
    obtain heq | hended := hspend.check hspent
    · omega
    · rw [hpoint', hended]
  · obtain ⟨events', hcount, hrun⟩ := exists_run h events
    obtain ⟨-, hpoint', -⟩ := loop?_eq_some_iff.1 hrun
    rw [hpoint] at hstart
    have hbest : l.job.best.isSome = true := by
      by_contra hbest
      simp [Job.Loop.callsLeft, hstart, hbest] at hno_call
    have hlast : l.InLastCheck := ⟨hresolved, hbest, .inl hstart⟩
    rw [hpoint']
    exact hlast.ended _ (hcount ▸ hworks)

/-- Once the flag is set, there is at most one call and at most one payload left. -/
lemma atMostOnceMore_of_resolved (h : s.loop? = some l) (hresolved : l.job.resolved = true)
    (events : List Event) : s.AtMostOnceMore (s.run events) := by
  obtain ⟨events', -, hrun⟩ := exists_run h events
  have hspend := Job.Loop.spends_run hresolved s.coordinator.timing events'
  generalize l.run s.coordinator.timing events' = l' at hrun hspend
  obtain ⟨-, -, hcalls, hpublished, -⟩ := loop?_eq_some_iff.1 h
  obtain ⟨hj', hpoint', hcalls', hpublished', -⟩ := loop?_eq_some_iff.1 hrun
  have hfewer := hspend.calls
  have hfewer' := hspend.published
  have hone := l.callsLeft_le
  have hone' := l.payloadsLeft_le
  -- where no call is under way, payloads are left only where calls are
  have hleft (hidle : ¬ (s.run events).InCall) : l'.payloadsLeft = l'.callsLeft := by
    refine l'.payloadsLeft_eq fun hin => hidle ?_
    rw [InCall, hpoint']
    exact hin
  refine ⟨by omega, by omega, fun hmore hidle => ?_, fun hpayload hhead hcall hidle => ?_⟩
  · have hspent := hleft hidle
    exact windsDown_of_payloadsLeft hrun hspend.resolved (by omega)
  · obtain ⟨j, hj, hbest⟩ := hpayload
    cases hj.symm.trans hj'
    rw [hpoint'] at hhead hcall
    have hspent := hleft hidle
    exact windsDown_of_payloadsLeft hrun hspend.resolved
      (hspent.trans (l'.callsLeft_of_payload hbest hhead hcall))

/-- Once the job is off the table, no round that begins after that calls the builder. -/
lemma isIdle_of_cancelled (h : s.loop? = some l) (hcancelled : l.job.cancelled = true)
    (hpoint : s.point = .atCancelled) : s.IsIdle := by
  intro events
  obtain ⟨events', -, hrun⟩ := exists_run h events
  obtain ⟨-, hpoint', hcalls, hpublished, -⟩ := loop?_eq_some_iff.1 h
  obtain ⟨-, -, hcalls', hpublished', -⟩ := loop?_eq_some_iff.1 hrun
  have hwithdrawn : l.Withdrawn := ⟨hcancelled, .inl (hpoint'.symm.trans hpoint)⟩
  obtain ⟨hsame, hsame'⟩ := hwithdrawn.run s.coordinator.timing events'
  exact ⟨by omega, by omega⟩

/-- Steps of the loop leave the table alone. -/
lemma inTable_stepLoop (h : s.loop? = some l) (hin : s.InTable) (event : Job.Loop.Event) :
    (s.stepLoop event).InTable := by
  simp only [stepLoop, h]
  exact hin

/-- An event that takes the job off the table marks it. -/
lemma cancelled_of_removed (h : s.loop? = some l) (event : Event) (hin : s.InTable)
    (hout : ¬ (s.step event).InTable) :
    ∃ l', (s.step event).loop? = some l' ∧ l'.job.cancelled = true := by
  obtain ⟨hj, -⟩ := loop?_eq_some_iff.1 h
  have hbefore : s.coordinator.InTableOrCancelled s.number := ⟨l.job, hj, .inr hin⟩
  have hmarked {c : Coordinator} (hafter : c.InTableOrCancelled s.number)
      (hgone : ¬ c.InTable s.number) :
      ∃ l', { s with coordinator := c }.loop? = some l' ∧ l'.job.cancelled = true := by
    obtain ⟨j, hj, hflag⟩ := hafter
    exact ⟨⟨j, s.point, s.calls, s.published, s.checks⟩,
      loop?_eq_some_iff.2 ⟨hj, rfl, rfl, rfl, rfl⟩, hflag.resolve_right hgone⟩
  cases event with
  | work => exact absurd (inTable_stepLoop h hin _) hout
  | answer outcome => exact absurd (inTable_stepLoop h hin _) hout
  | move head => exact absurd hin hout
  | pass ms => exact absurd hin hout
  | retrieve id =>
    -- it sets a flag, and the table stays
    have hkept : (retrieved s.coordinator id).InTable s.number := by
      unfold retrieved
      split <;> exact hin
    exact absurd hkept hout
  | cancel id => exact hmarked (hbefore.cancel id) hout
  | start id parent a =>
    by_cases hfree : ((s.coordinator.makeRoom parent.hash).2.table.entries.get? id).isNone
    · simp only [step, if_pos hfree] at hout ⊢
      exact hmarked (hbefore.startAs (Option.isNone_iff_eq_none.1 hfree) a) hout
    · simp only [step, if_neg hfree] at hout
      exact absurd hin hout

lemma loop?_retrieve (h : s.loop? = some l) {id : PayloadId}
    (hid : s.coordinator.lookup? id = some s.number) :
    ∃ l', (s.step (.retrieve id)).loop? = some l' ∧ l'.job.resolved = true := by
  obtain ⟨hj, hshows⟩ := loop?_eq_some_iff.1 h
  refine ⟨{ l with job := { l.job with resolved := true } },
    loop?_eq_some_iff.2 ⟨?_, hshows⟩, rfl⟩
  simp only [step, retrieved, hid]
  show (s.coordinator.jobs.modify s.number _)[s.number]? = _
  rw [List.getElem?_modify, hj]
  simp

/-- Once the payload of a job was asked for, its loop calls the builder at most once more and
publishes at most one more payload, and after that it ends at its next check.  And once the job is
cancelled, superseded or evicted, no round that begins after that calls the builder or publishes.
This is so however the steps of the loop, calls to the coordinator, moves of the head and the passing
of time follow each other, and whatever the builder answers. -/
theorem job_stops (h : s.loop? = some l) :
    (∀ id, s.coordinator.lookup? id = some s.number → ∀ events,
      (s.step (.retrieve id)).AtMostOnceMore ((s.step (.retrieve id)).run events)) ∧
    ∀ event, s.InTable → ¬ (s.step event).InTable → ∀ events,
      ((s.step event).run events).point = .atCancelled →
        ((s.step event).run events).IsIdle := by
  constructor
  · intro id hid events
    obtain ⟨l', hloop, hresolved⟩ := loop?_retrieve h hid
    exact atMostOnceMore_of_resolved hloop hresolved events
  · intro event hin hout events hpoint
    obtain ⟨l', hloop, hcancelled⟩ := cancelled_of_removed h event hin hout
    obtain ⟨events', -, hrun⟩ := exists_run hloop events
    exact isIdle_of_cancelled hrun (Job.Loop.cancelled_run hcancelled _ events') hpoint

/-- The one job of a coordinator, before its first turn. -/
def firstJob : Scene where
  coordinator := Coordinator.oneJob
  head := some Coordinator.baseBlock.hash
  number := 0

/-- A first round in which the builder answers with a payload, a pause, and the check after it. -/
def firstRound : List Event :=
  List.replicate 6 .work ++ [.answer (.built Coordinator.firstPayload), .work, .work, .pass 500] ++
    List.replicate 4 .work

/-- After a retrieval the one call that is left is made, its payload is published, and the loop ends
at its next check.  After a cancellation the loop ends at its first check. -/
theorem job_stops_firstJob :
    (firstJob.coordinator.lookup? (.zero 8) = some firstJob.number ∧
      (∀ events, (firstJob.step (.retrieve (.zero 8))).AtMostOnceMore
        ((firstJob.step (.retrieve (.zero 8))).run events)) ∧
      ((firstJob.step (.retrieve (.zero 8))).run firstRound).calls = 1 ∧
      ((firstJob.step (.retrieve (.zero 8))).run firstRound).published = 1 ∧
      ((firstJob.step (.retrieve (.zero 8))).run firstRound).point = .ended) ∧
    firstJob.InTable ∧ ¬ (firstJob.step (.cancel (.zero 8))).InTable ∧
      (∀ events, ((firstJob.step (.cancel (.zero 8))).run events).point = .atCancelled →
        ((firstJob.step (.cancel (.zero 8))).run events).IsIdle) ∧
      ((firstJob.step (.cancel (.zero 8))).run [.work]).IsIdle ∧
      ((firstJob.step (.cancel (.zero 8))).run [.work, .work]).point = .ended := by
  have hin : firstJob.InTable := ⟨.zero 8, ⟨0, Coordinator.baseBlock.hash⟩, rfl, rfl⟩
  have hout : ¬ (firstJob.step (.cancel (.zero 8))).InTable := by
    rintro ⟨id, entry, hentry, -⟩
    have hempty : (firstJob.step (.cancel (.zero 8))).coordinator.table.entries = .empty := rfl
    rw [hempty] at hentry
    cases hentry
  obtain ⟨hretrieve, hremove⟩ := job_stops (s := firstJob) rfl
  exact ⟨⟨rfl, hretrieve (.zero 8) rfl, by decide, by decide, by decide⟩, hin, hout,
    hremove (.cancel (.zero 8)) hin hout, hremove (.cancel (.zero 8)) hin hout [.work] rfl, rfl⟩

end Scene

end ChainHead
