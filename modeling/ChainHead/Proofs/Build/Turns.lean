import Mathlib.Logic.Relation
import ChainHead.Proofs.Build.Loop
import ChainHead.Proofs.Build.Work
import ChainHead.Proofs.Failure

/-!
# A turn is an uninterrupted run of the loop

A turn of a job takes at once what the loop of the job does in several steps.  Here the two are
brought together: while nobody else acts, the head stays and no time passes, the loop does exactly
what the turn does (`Coordinator.turn_is_run`).  It makes the same calls of the builder, leaves the
same job, and goes to sleep until the same time.
-/

namespace ChainHead

namespace Job

variable {timing : Timing} {head : Option Hash} {now : Nat}

/-- The job in a phase, whichever it was in before. -/
def inPhase (j : Job) (phase : Phase) : Job := { j with phase }

/-- How the point of a loop shows the phase of its job and the time of its next turn. -/
inductive Point.Shows : Point → Phase → Option Nat → Prop where
  | asleep (time : Nat) : Shows (.asleep time) .resting (some time)
  | inCall (kind : BuilderAnswer.Kind) (time : Nat) : Shows .inCall (.building kind) (some time)
  | ended : Shows .ended .ended none
  | crashed : Shows .crashed .crashed none

/-- Where a loop stands whose turn has come. -/
def Point.Awaits (now : Nat) (point : Point) : Phase → Prop
  | .resting => point = .atStart ∨ ∃ time ≤ now, point = .asleep time
  | .building _ => point = .inCall
  | .ended => False
  | .crashed => False

namespace Loop

variable {l l' l'' : Loop}

/-- The loop stands where a turn leaves its job. -/
structure Follows (l : Loop) (turn : Turn) : Prop where
  job : l.job.inPhase turn.job.phase = turn.job
  point : l.point.Shows turn.job.phase turn.wake

/-- An uninterrupted run: only the loop and the builder act, under one head and at one time. -/
abbrev Runs (timing : Timing) (head : Option Hash) (now : Nat) : Loop → Loop → Prop :=
  Relation.ReflTransGen fun l l' =>
    l' = l.step timing (.work head now) ∨ ∃ outcome, l' = l.step timing (.answer outcome)

lemma Runs.work (h : Runs timing head now l l') (hwork : l'.work timing head now = l'') :
    Runs timing head now l l'' :=
  h.tail (.inl hwork.symm)

lemma Runs.answer (h : Runs timing head now l l') (outcome : Outcome)
    (hanswer : l'.answer outcome = l'') : Runs timing head now l l'' :=
  h.tail (.inr ⟨outcome, hanswer.symm⟩)

/-! ## The check -/

/-- The check passes where the job goes on. -/
lemma runs_check_of_goesOn (hpoint : l.point = .atCancelled) (hgoes : l.job.goesOn head = true) :
    Runs timing head now l { l with point := .atCall, checks := l.checks + 1 } := by
  obtain ⟨job, point, calls, published, checks⟩ := l
  have hpoint : point = .atCancelled := hpoint
  subst hpoint
  simp only [goesOn, Bool.and_eq_true, Bool.not_eq_true', beq_iff_eq] at hgoes
  obtain ⟨⟨hcancelled, hwanted⟩, hhead⟩ := hgoes
  have hflag : Runs timing head now ⟨job, .atCancelled, calls, published, checks⟩
      ⟨job, .atResolved, calls, published, checks⟩ :=
    Runs.work .refl (if_neg (by simp [hcancelled]))
  have hatHead : Runs timing head now ⟨job, .atCancelled, calls, published, checks⟩
      ⟨job, .atHead, calls, published, checks⟩ := by
    by_cases hresolved : job.resolved = true
    · have hbest : ¬ job.best.isSome = true := by
        rw [hresolved, Bool.true_and] at hwanted
        simp [hwanted]
      exact (hflag.work (if_pos hresolved)).work (if_neg hbest)
    · exact hflag.work (if_neg hresolved)
  exact hatHead.work (if_pos hhead)

/-- The check ends the loop where the job does not go on. -/
lemma runs_check_of_not_goesOn (hpoint : l.point = .atCancelled)
    (hstays : l.job.goesOn head = false) :
    Runs timing head now l { l with point := .ended, checks := l.checks + 1 } := by
  obtain ⟨job, point, calls, published, checks⟩ := l
  have hpoint : point = .atCancelled := hpoint
  subst hpoint
  have hstays : job.goesOn head = false := hstays
  by_cases hcancelled : job.cancelled = true
  · exact Runs.work .refl (if_pos hcancelled)
  have hflag : Runs timing head now ⟨job, .atCancelled, calls, published, checks⟩
      ⟨job, .atResolved, calls, published, checks⟩ := Runs.work .refl (if_neg hcancelled)
  by_cases hresolved : job.resolved = true
  · have hatBest : Runs timing head now ⟨job, .atCancelled, calls, published, checks⟩
        ⟨job, .atBest, calls, published, checks⟩ := hflag.work (if_pos hresolved)
    by_cases hbest : job.best.isSome = true
    · exact hatBest.work (if_pos hbest)
    · have hhead : ¬ head = some job.parent.hash := by
        intro hhead
        simp [goesOn, hcancelled, hresolved, hbest, hhead] at hstays
      exact (hatBest.work (if_neg hbest)).work (if_neg hhead)
  · have hhead : ¬ head = some job.parent.hash := by
      intro hhead
      simp [goesOn, hcancelled, hresolved, hhead] at hstays
    exact (hflag.work (if_neg hresolved)).work (if_neg hhead)

lemma runs_quit (timing : Timing) (now : Nat) (hpoint : l.point = .atCancelled)
    (hstays : l.job.goesOn head = false) :
    ∃ l', Runs timing head now l l' ∧ l'.Follows l.job.quit ∧ l'.calls = l.calls := by
  refine ⟨_, runs_check_of_not_goesOn hpoint hstays, ?_, rfl⟩
  unfold quit
  split_ifs
  · exact ⟨rfl, .ended⟩
  · exact ⟨rfl, .ended⟩

/-! ## The call -/

lemma runs_rest (hpoint : l.point = .atClock) (notices : List Log.Notice) :
    ∃ l', Runs timing head now l l' ∧ l'.Follows (l.job.rest timing now notices) ∧
      l'.calls = l.calls := by
  obtain ⟨job, point, calls, published, checks⟩ := l
  have hpoint : point = .atClock := hpoint
  subst hpoint
  refine ⟨_, Runs.work .refl rfl, ?_, rfl⟩
  unfold rest work
  dsimp only
  split_ifs
  · exact ⟨rfl, .ended⟩
  · exact ⟨rfl, .asleep _⟩

/-- The loop after a call, as it goes on to its rest. -/
lemma Runs.rest (h : Runs timing head now l l') (hpoint : l'.point = .atClock)
    (hcalls : l'.calls = l.calls) (notices : List Log.Notice) :
    ∃ l'', Runs timing head now l l'' ∧ l''.Follows (l'.job.rest timing now notices) ∧
      l''.calls = l.calls := by
  obtain ⟨l'', hrest, hfollows, hcalls'⟩ := runs_rest hpoint notices
  exact ⟨l'', h.trans hrest, hfollows, hcalls'.trans hcalls⟩

/-- A payload is published under the number of its round, which is the one it was built in. -/
lemma iteration_of_emptyBlock {order : BuildOrder} {p : BuiltPayload}
    (h : order.emptyBlock = .ok p) : { p with iteration := order.iteration } = p := by
  obtain ⟨number, -, h⟩ := bind_eq_ok_iff.1 h
  cases h
  rfl

lemma runs_published (hpoint : l.point = .inCall) {p : BuiltPayload}
    (hbuilt : l.job.order.emptyBlock = .ok p) :
    ∃ l', Runs timing head now l l' ∧ l'.Follows ((l.job.publish p).rest timing now []) ∧
      l'.calls = l.calls := by
  obtain ⟨job, point, calls, published, checks⟩ := l
  have hpoint : point = .inCall := hpoint
  subst hpoint
  have hanswer : Loop.answer (.built p) ⟨job, .inCall, calls, published, checks⟩ =
      ⟨job, .atPublish p, calls, published, checks⟩ := by
    show Loop.mk job (.atPublish { p with iteration := job.iteration }) calls published checks = _
    have hsame := iteration_of_emptyBlock hbuilt
    rw [show job.iteration = job.order.iteration from rfl, hsame]
  have hpublished : Runs timing head now ⟨job, .inCall, calls, published, checks⟩
      ⟨job.publish p, .atClock, calls, published + 1, checks⟩ :=
    (Runs.answer .refl (.built p) hanswer).work rfl
  exact hpublished.rest rfl rfl []

lemma runs_failed (hpoint : l.point = .inCall) :
    ∃ l', Runs timing head now l l' ∧ l'.Follows (l.job.answered timing now .failure) ∧
      l'.calls = l.calls := by
  obtain ⟨job, point, calls, published, checks⟩ := l
  have hpoint : point = .inCall := hpoint
  subst hpoint
  have hfailed : Runs timing head now ⟨job, .inCall, calls, published, checks⟩
      ⟨job, .atFailed, calls, published, checks⟩ :=
    Runs.answer .refl .failed rfl
  unfold answered
  dsimp only
  by_cases hresolved : job.resolved = true
  · have hatBest : Runs timing head now ⟨job, .inCall, calls, published, checks⟩
        ⟨job, .atFailedBest, calls, published, checks⟩ := hfailed.work (if_pos hresolved)
    by_cases hbest : job.best.isNone = true
    · rw [if_pos (by simp [hresolved, hbest])]
      exact ⟨⟨job, .ended, calls, published, checks⟩, hatBest.work (if_pos hbest), ⟨rfl, .ended⟩, rfl⟩
    · rw [if_neg (by simp [hbest])]
      have hatClock : Runs timing head now ⟨job, .inCall, calls, published, checks⟩
          ⟨job, .atClock, calls, published, checks⟩ := hatBest.work (if_neg hbest)
      exact hatClock.rest rfl rfl _
  · rw [if_neg (by simp [hresolved])]
    have hatClock : Runs timing head now ⟨job, .inCall, calls, published, checks⟩
        ⟨job, .atClock, calls, published, checks⟩ := hfailed.work (if_neg hresolved)
    exact hatClock.rest rfl rfl _

lemma runs_crashed (hpoint : l.point = .inCall) :
    ∃ l', Runs timing head now l l' ∧
      l'.Follows ⟨{ l.job with phase := .crashed }, none, []⟩ ∧ l'.calls = l.calls := by
  obtain ⟨job, point, calls, published, checks⟩ := l
  have hpoint : point = .inCall := hpoint
  subst hpoint
  exact ⟨_, Runs.answer .refl .crashed rfl, ⟨rfl, .crashed⟩, rfl⟩

/-- Whatever the builder answers, the loop does with it what the turn does. -/
lemma runs_answered (timing : Timing) (head : Option Hash) (now : Nat)
    (hpoint : l.point = .inCall) (kind : BuilderAnswer.Kind) :
    ∃ l', Runs timing head now l l' ∧ l'.Follows (l.job.answered timing now kind) ∧
      l'.calls = l.calls := by
  cases kind with
  | success =>
    unfold answered
    dsimp only
    cases hbuilt : l.job.order.emptyBlock with
    | ok p => exact runs_published hpoint hbuilt
    | error failure => exact runs_crashed hpoint
  | failure => exact runs_failed hpoint
  | crash => exact runs_crashed hpoint

lemma runs_ask (timing : Timing) (now : Nat) (hpoint : l.point = .atCancelled)
    (hgoes : l.job.goesOn head = true) (answer : BuilderAnswer) :
    ∃ l', Runs timing head now l l' ∧ l'.Follows (l.job.ask timing now answer) ∧
      l'.calls = l.calls + 1 := by
  have hcall : Runs timing head now l
      { l with point := .inCall, checks := l.checks + 1, calls := l.calls + 1 } :=
    (runs_check_of_goesOn hpoint hgoes).work rfl
  unfold ask
  split_ifs
  · obtain ⟨l', hanswered, hfollows, hcalls⟩ := runs_answered timing head now
      (l := { l with point := .inCall, checks := l.checks + 1, calls := l.calls + 1 }) rfl
      answer.kind
    exact ⟨l', hcall.trans hanswered, hfollows, hcalls⟩
  · exact ⟨_, hcall, ⟨rfl, .inCall _ _⟩, rfl⟩

/-- A loop that begins just when its job has the deadline for this sets the same deadline. -/
lemma Runs.of_starts (hpoint : l.point = .atStart)
    (hdeadline : l.job.deadline = now + timing.deadline) :
    Runs timing head now l { l with point := .atCancelled } := by
  obtain ⟨job, point, calls, published, checks⟩ := l
  have hpoint : point = .atStart := hpoint
  have hdeadline : job.deadline = now + timing.deadline := hdeadline
  subst hpoint
  have hjob : { job with deadline := now + timing.deadline } = job := by rw [← hdeadline]
  refine Runs.work .refl ?_
  show Loop.mk { job with deadline := now + timing.deadline } .atCancelled calls published checks = _
  rw [hjob]

lemma Runs.of_wakes {time : Nat} (hpoint : l.point = .asleep time) (htime : time ≤ now) :
    Runs timing head now l { l with point := .atCancelled } := by
  obtain ⟨job, point, calls, published, checks⟩ := l
  have hpoint : point = .asleep time := hpoint
  subst hpoint
  exact Runs.work .refl (if_pos htime)

end Loop

/-! ## The phase does not matter -/

variable {j : Job} {phase : Phase}

lemma goesOn_inPhase : (j.inPhase phase).goesOn head = j.goesOn head := rfl

lemma quit_inPhase : (j.inPhase phase).quit = j.quit := rfl

lemma answered_inPhase (kind : BuilderAnswer.Kind) :
    (j.inPhase phase).answered timing now kind = j.answered timing now kind := by
  cases kind <;> rfl

lemma ask_inPhase (answer : BuilderAnswer) :
    (j.inPhase phase).ask timing now answer = j.ask timing now answer := by
  unfold ask
  rw [answered_inPhase]
  rfl

end Job

/-! ## Turns of the coordinator -/

namespace Coordinator

variable {c : Coordinator} {head : Option Hash} {k : Nat} {j : Job} {l : Job.Loop}

/-- A turn of a job takes over what comes out of an uninterrupted run of its loop, and it counts the
same calls of the builder. -/
theorem turn_is_run (hj : c.jobs[k]? = some j) (hjob : l.job.inPhase j.phase = j)
    (hpoint : l.point.Awaits c.now j.phase)
    (hdeadline : l.point = .atStart → j.deadline = c.now + c.timing.deadline) :
    ∃ turn l', l.Runs c.timing head c.now l' ∧ l'.Follows turn ∧
      (c.turn head k).jobs = c.jobs.set k turn.job ∧
      (c.turn head k).wakeups = c.wakeups ++ turn.wake.toList.map (Wakeup.mk k) ∧
      (c.turn head k).attempts.size + l.calls = c.attempts.size + l'.calls := by
  -- a loop that rests begins its check
  have hbegins (hresting : j.phase = .resting) :
      l.Runs c.timing head c.now { l with point := .atCancelled } := by
    rw [hresting] at hpoint
    obtain hat | ⟨time, htime, hat⟩ := hpoint
    · refine .of_starts hat ?_
      rw [← hdeadline hat, ← hjob]
      rfl
    · exact .of_wakes hat htime
  have hends := c.turn_ends head k
  generalize c.turn head k = c' at hends
  cases hends with
  | idle hidle =>
    obtain hended | hcrashed := hidle j hj
    · rw [hended] at hpoint
      exact hpoint.elim
    · rw [hcrashed] at hpoint
      exact hpoint.elim
  | @attempt j' hj' hphase hgoes =>
    cases hj.symm.trans hj'
    rw [← hjob, Job.goesOn_inPhase] at hgoes
    obtain ⟨l', hruns, hfollows, hcalls⟩ := Job.Loop.runs_ask c.timing c.now
      (l := { l with point := .atCancelled }) rfl hgoes c.nextAnswer
    obtain ⟨journal, gauge, hconclude⟩ :=
      (c.note j).conclude_eq_with k (j.ask c.timing c.now c.nextAnswer)
    have hask : l.job.ask c.timing c.now c.nextAnswer = j.ask c.timing c.now c.nextAnswer := by
      rw [← Job.ask_inPhase, hjob]
    rw [hconclude]
    refine ⟨_, l', (hbegins hphase).trans hruns, hask ▸ hfollows, rfl, rfl, ?_⟩
    simp only [note, Array.size_push, hcalls]
    omega
  | @quit j' hj' hphase hstays =>
    cases hj.symm.trans hj'
    rw [← hjob, Job.goesOn_inPhase] at hstays
    obtain ⟨l', hruns, hfollows, hcalls⟩ := Job.Loop.runs_quit c.timing c.now
      (l := { l with point := .atCancelled }) rfl hstays
    obtain ⟨journal, gauge, hconclude⟩ := c.conclude_eq_with k j.quit
    have hquit : l.job.quit = j.quit := by
      rw [← Job.quit_inPhase, hjob]
    rw [hconclude]
    exact ⟨_, l', (hbegins hphase).trans hruns, hquit ▸ hfollows, rfl, rfl, by rw [hcalls]⟩
  | @answer j' kind hj' hphase =>
    cases hj.symm.trans hj'
    rw [hphase] at hpoint
    obtain ⟨l', hruns, hfollows, hcalls⟩ := Job.Loop.runs_answered c.timing head c.now
      hpoint kind
    obtain ⟨journal, gauge, hconclude⟩ := c.conclude_eq_with k (j.answered c.timing c.now kind)
    have hanswered : l.job.answered c.timing c.now kind = j.answered c.timing c.now kind := by
      rw [← Job.answered_inPhase, hjob]
    rw [hconclude]
    exact ⟨_, l', hruns, hanswered ▸ hfollows, rfl, rfl, by rw [hcalls]⟩

end Coordinator

end ChainHead
