import Mathlib.Tactic.Common
import ChainHead.Build.Loop

/-!
# A loop that was told to stop

Once the payload of a job was asked for, its loop has at most one call of the builder and at most
one payload left.  How many it has left depends on where it stands and on whether it has a payload
(`Job.Loop.callsLeft`, `Job.Loop.payloadsLeft`), and no event makes more of them
(`Job.Loop.Spends`).  So the flag may be set at any point: before the check, within it, during a
call, after a failure or in the sleep.

A loop with none left ends at its next check.  One whose job was taken off the table ends at the
check that it begins after that.
-/

namespace ChainHead

/-- A loop that stands here is in a call of the builder or has a payload from it in its hands. -/
def Job.Point.InCall (point : Job.Point) : Prop := point = .inCall ∨ ∃ p, point = .atPublish p

namespace Job.Loop

variable {l l' l'' : Loop} {events : List Event}

/-! ## What is left -/

/-- The number of calls that a loop begins at most once its payload was asked for. -/
def callsLeft (l : Loop) : Nat :=
  match l.point with
  | .atHead | .atCall => 1
  | .atStart | .atCancelled | .atResolved | .atBest | .atClock | .asleep _ =>
    if l.job.best.isSome then 0 else 1
  | .inCall | .atPublish _ | .atFailed | .atFailedBest | .ended | .crashed => 0

/-- The number of payloads that it publishes at most from then on. -/
def payloadsLeft (l : Loop) : Nat :=
  match l.point with
  | .inCall | .atPublish _ => 1
  | _ => l.callsLeft

lemma callsLeft_le (l : Loop) : l.callsLeft ≤ 1 := by
  unfold callsLeft
  split
  all_goals (try split_ifs)
  all_goals omega

lemma payloadsLeft_le (l : Loop) : l.payloadsLeft ≤ 1 := by
  unfold payloadsLeft
  split
  · exact Nat.le_refl 1
  · exact Nat.le_refl 1
  · exact l.callsLeft_le

lemma callsLeft_le_payloadsLeft (l : Loop) : l.callsLeft ≤ l.payloadsLeft := by
  unfold payloadsLeft
  split
  · exact l.callsLeft_le
  · exact l.callsLeft_le
  · exact Nat.le_refl _

/-- Apart from a call that is under way, payloads are left only where calls are. -/
lemma payloadsLeft_eq (l : Loop) (h : ¬ l.point.InCall) : l.payloadsLeft = l.callsLeft := by
  unfold payloadsLeft
  split
  · rename_i hpoint
    exact absurd (.inl hpoint) h
  · rename_i p hpoint
    exact absurd (.inr ⟨p, hpoint⟩) h
  · rfl

/-- With a payload, a call is left only where the check has passed. -/
lemma callsLeft_of_payload (l : Loop) (hbest : l.job.best.isSome = true)
    (hhead : l.point ≠ .atHead) (hcall : l.point ≠ .atCall) : l.callsLeft = 0 := by
  unfold callsLeft
  rw [if_pos hbest]
  split <;> first | rfl | contradiction

/-! ## One event -/

/-- The loop has spent of what was left, and no check has passed if nothing was left. -/
structure Spends (l l' : Loop) : Prop where
  resolved : l'.job.resolved = true
  calls_le : l.calls ≤ l'.calls
  published_le : l.published ≤ l'.published
  calls : l'.calls + l'.callsLeft ≤ l.calls + l.callsLeft
  published : l'.published + l'.payloadsLeft ≤ l.published + l.payloadsLeft
  ended : l.point = .ended → l'.point = .ended
  check : l.payloadsLeft = 0 → l'.checks = l.checks ∨ l'.point = .ended

namespace Spends

lemma refl (h : l.job.resolved = true) : Spends l l :=
  ⟨h, Nat.le_refl _, Nat.le_refl _, Nat.le_refl _, Nat.le_refl _, fun h => h,
    fun _ => .inl rfl⟩

lemma goTo {point : Point} (h : l.job.resolved = true) (hpoint : l.point ≠ .ended)
    (hcalls : (l.goTo point).callsLeft ≤ l.callsLeft)
    (hpayloads : (l.goTo point).payloadsLeft ≤ l.payloadsLeft) : Spends l (l.goTo point) :=
  ⟨h, Nat.le_refl _, Nat.le_refl _, Nat.add_le_add_left hcalls _, Nat.add_le_add_left hpayloads _,
    fun hended => absurd hended hpoint, fun _ => .inl rfl⟩

/-- A check may always end the loop. -/
lemma endCheck (h : l.job.resolved = true) (hpoint : l.point ≠ .ended) :
    Spends l (l.endCheck .ended) :=
  ⟨h, Nat.le_refl _, Nat.le_refl _, Nat.add_le_add_left (Nat.zero_le _) _,
    Nat.add_le_add_left (Nat.zero_le _) _, fun hended => absurd hended hpoint, fun _ => .inr rfl⟩

lemma work (h : l.job.resolved = true) (timing : Timing) (head : Option Hash) (now : Nat) :
    Spends l (l.work timing head now) := by
  obtain ⟨job, point, calls, published, checks⟩ := l
  have h : job.resolved = true := h
  cases point with
  | atStart =>
    exact ⟨h, Nat.le_refl _, Nat.le_refl _, Nat.le_refl _, Nat.le_refl _, nofun, fun _ => .inl rfl⟩
  | atCancelled =>
    unfold Loop.work
    dsimp only
    split_ifs
    · exact .endCheck h nofun
    · exact .goTo h nofun (Nat.le_refl _) (Nat.le_refl _)
  | atResolved =>
    unfold Loop.work
    dsimp only
    rw [if_pos h]
    exact .goTo h nofun (Nat.le_refl _) (Nat.le_refl _)
  | atBest =>
    unfold Loop.work
    dsimp only
    split_ifs with hbest
    · exact .endCheck h nofun
    · exact .goTo h nofun (by simp [callsLeft, Loop.goTo, hbest])
        (by simp [payloadsLeft, callsLeft, Loop.goTo, hbest])
  | atHead =>
    unfold Loop.work
    dsimp only
    split_ifs
    · exact ⟨h, Nat.le_refl _, Nat.le_refl _, Nat.le_refl _, Nat.le_refl _, nofun, nofun⟩
    · exact .endCheck h nofun
  | atCall =>
    exact ⟨h, Nat.le_succ _, Nat.le_refl _, Nat.le_refl _, Nat.le_refl _, nofun, nofun⟩
  | inCall => exact .refl h
  | atPublish p =>
    exact ⟨h, Nat.le_refl _, Nat.le_succ _, Nat.le_refl _, Nat.le_refl _, nofun, fun _ => .inl rfl⟩
  | atFailed =>
    unfold Loop.work
    dsimp only
    rw [if_pos h]
    exact .goTo h nofun (Nat.le_refl _) (Nat.le_refl _)
  | atFailedBest =>
    unfold Loop.work
    dsimp only
    split_ifs with hbest
    · exact .goTo h nofun (Nat.le_refl _) (Nat.le_refl _)
    · have hbest : job.best.isSome = true := by simpa [Option.isNone_iff_eq_none,
        Option.isSome_iff_ne_none] using hbest
      exact .goTo h nofun (by simp [callsLeft, Loop.goTo, hbest])
        (by simp [payloadsLeft, callsLeft, Loop.goTo, hbest])
  | atClock =>
    unfold Loop.work
    dsimp only
    split_ifs
    · exact ⟨h, Nat.le_refl _, Nat.le_refl _, Nat.add_le_add_left (Nat.zero_le _) _,
        Nat.add_le_add_left (Nat.zero_le _) _, nofun, fun _ => .inl rfl⟩
    · exact ⟨h, Nat.le_refl _, Nat.le_refl _, Nat.le_refl _, Nat.le_refl _, nofun,
        fun _ => .inl rfl⟩
  | asleep time =>
    unfold Loop.work
    dsimp only
    split_ifs
    · exact .goTo h nofun (Nat.le_refl _) (Nat.le_refl _)
    · exact .refl h
  | ended => exact .refl h
  | crashed => exact .refl h

lemma answer (h : l.job.resolved = true) (outcome : Outcome) : Spends l (l.answer outcome) := by
  obtain ⟨job, point, calls, published, checks⟩ := l
  unfold Loop.answer
  split
  · rename_i hpoint
    cases hpoint
    exact .goTo h nofun (Nat.le_refl _) (Nat.le_refl _)
  · rename_i hpoint
    cases hpoint
    exact .goTo h nofun (Nat.le_refl _) (Nat.zero_le _)
  · rename_i hpoint
    cases hpoint
    exact .goTo h nofun (Nat.le_refl _) (Nat.zero_le _)
  · exact .refl h

lemma step (h : l.job.resolved = true) (timing : Timing) (event : Event) :
    Spends l (l.step timing event) := by
  cases event with
  | work head now => exact .work h timing head now
  | answer outcome => exact .answer h outcome
  | cancel => exact ⟨h, Nat.le_refl _, Nat.le_refl _, Nat.le_refl _, Nat.le_refl _,
      fun h => h, fun _ => .inl rfl⟩
  | resolve => exact ⟨rfl, Nat.le_refl _, Nat.le_refl _, Nat.le_refl _, Nat.le_refl _,
      fun h => h, fun _ => .inl rfl⟩

lemma payloadsLeft_eq_zero (h : Spends l l') (hspent : l.payloadsLeft = 0) :
    l'.payloadsLeft = 0 := by
  have hle := h.published_le
  have hsum := h.published
  omega

lemma trans (h : Spends l l') (h' : Spends l' l'') : Spends l l'' where
  resolved := h'.resolved
  calls_le := Nat.le_trans h.calls_le h'.calls_le
  published_le := Nat.le_trans h.published_le h'.published_le
  calls := Nat.le_trans h'.calls h.calls
  published := Nat.le_trans h'.published h.published
  ended hended := h'.ended (h.ended hended)
  check hspent := by
    obtain hchecks | hended := h.check hspent
    · rw [← hchecks]
      exact h'.check (h.payloadsLeft_eq_zero hspent)
    · exact .inr (h'.ended hended)

end Spends

lemma run_cons (timing : Timing) (l : Loop) (event : Event) (events : List Event) :
    l.run timing (event :: events) = (l.step timing event).run timing events := rfl

/-- However the events are ordered, the loop only spends of what was left. -/
theorem spends_run (h : l.job.resolved = true) (timing : Timing) (events : List Event) :
    Spends l (l.run timing events) := by
  induction events generalizing l with
  | nil => exact .refl h
  | cons event events ih =>
    have hstep := Spends.step h timing event
    rw [run_cons]
    exact hstep.trans (ih hstep.resolved)

/-! ## The last check -/

/-- Whether an event is a step of the loop. -/
def Event.isWork : Event → Bool
  | .work _ _ => true
  | _ => false

/-- The number of steps up to the end of a loop that has a payload and is in its check. -/
def stepsToEnd (l : Loop) : Nat :=
  match l.point with
  | .atCancelled => 3
  | .atResolved => 2
  | .atBest => 1
  | _ => 0

/-- The loop has the payload that was asked for, and it is in its check or at its end. -/
structure InLastCheck (l : Loop) : Prop where
  resolved : l.job.resolved = true
  hasBest : l.job.best.isSome = true
  point : l.point = .atCancelled ∨ l.point = .atResolved ∨ l.point = .atBest ∨ l.point = .ended

lemma InLastCheck.step (h : l.InLastCheck) (timing : Timing) (event : Event) :
    (l.step timing event).InLastCheck ∧
      (l.step timing event).stepsToEnd ≤ l.stepsToEnd - if event.isWork then 1 else 0 := by
  obtain ⟨job, point, calls, published, checks⟩ := l
  obtain ⟨hresolved, hbest, hpoint⟩ := h
  have hresolved : job.resolved = true := hresolved
  have hbest : job.best.isSome = true := hbest
  have hpoint : point = .atCancelled ∨ point = .atResolved ∨ point = .atBest ∨ point = .ended :=
    hpoint
  cases event with
  | cancel => exact ⟨⟨hresolved, hbest, hpoint⟩, Nat.le_refl _⟩
  | resolve => exact ⟨⟨rfl, hbest, hpoint⟩, Nat.le_refl _⟩
  | answer outcome =>
    -- no call is under way
    have hanswer : Loop.answer outcome ⟨job, point, calls, published, checks⟩ =
        ⟨job, point, calls, published, checks⟩ := by
      obtain rfl | rfl | rfl | rfl := hpoint <;> rfl
    rw [Loop.step, hanswer]
    exact ⟨⟨hresolved, hbest, hpoint⟩, Nat.le_refl _⟩
  | work head now =>
    obtain rfl | rfl | rfl | rfl := hpoint
    · by_cases hcancelled : job.cancelled = true
      · have hwork : Loop.work timing head now ⟨job, .atCancelled, calls, published, checks⟩ =
            ⟨job, .ended, calls, published, checks + 1⟩ := if_pos hcancelled
        rw [Loop.step, hwork]
        exact ⟨⟨hresolved, hbest, .inr (.inr (.inr rfl))⟩, Nat.zero_le _⟩
      · have hwork : Loop.work timing head now ⟨job, .atCancelled, calls, published, checks⟩ =
            ⟨job, .atResolved, calls, published, checks⟩ := if_neg hcancelled
        rw [Loop.step, hwork]
        exact ⟨⟨hresolved, hbest, .inr (.inl rfl)⟩, Nat.le_refl _⟩
    · have hwork : Loop.work timing head now ⟨job, .atResolved, calls, published, checks⟩ =
          ⟨job, .atBest, calls, published, checks⟩ := if_pos hresolved
      rw [Loop.step, hwork]
      exact ⟨⟨hresolved, hbest, .inr (.inr (.inl rfl))⟩, Nat.le_refl _⟩
    · have hwork : Loop.work timing head now ⟨job, .atBest, calls, published, checks⟩ =
          ⟨job, .ended, calls, published, checks + 1⟩ := if_pos hbest
      rw [Loop.step, hwork]
      exact ⟨⟨hresolved, hbest, .inr (.inr (.inr rfl))⟩, Nat.zero_le _⟩
    · exact ⟨⟨hresolved, hbest, .inr (.inr (.inr rfl))⟩, Nat.zero_le _⟩

theorem InLastCheck.run (h : l.InLastCheck) (timing : Timing) (events : List Event) :
    (l.run timing events).InLastCheck ∧
      (l.run timing events).stepsToEnd ≤ l.stepsToEnd - events.countP Event.isWork := by
  induction events generalizing l with
  | nil => exact ⟨h, Nat.le_refl _⟩
  | cons event events ih =>
    obtain ⟨hstep, hle⟩ := h.step timing event
    obtain ⟨hrun, hle'⟩ := ih hstep
    rw [run_cons, List.countP_cons]
    exact ⟨hrun, by omega⟩

/-- Three steps of the loop are enough for its last check. -/
lemma InLastCheck.ended (h : l.InLastCheck) (timing : Timing)
    (hworks : 3 ≤ events.countP Event.isWork) :
    (l.run timing events).point = .ended := by
  obtain ⟨hrun, hle⟩ := h.run timing events
  have hthree : l.stepsToEnd ≤ 3 := by
    unfold stepsToEnd
    split <;> omega
  have hzero : (l.run timing events).stepsToEnd = 0 := by omega
  obtain hpoint | hpoint | hpoint | hpoint := hrun.point
  · simp [stepsToEnd, hpoint] at hzero
  · simp [stepsToEnd, hpoint] at hzero
  · simp [stepsToEnd, hpoint] at hzero
  · exact hpoint

/-! ## Off the table -/

/-- A step of the loop leaves all but the deadline, the payload and the number of the round as it
was. -/
lemma work_job (l : Loop) (timing : Timing) (head : Option Hash) (now : Nat) :
    ∃ deadline iteration best,
      (l.work timing head now).job = { l.job with deadline, iteration, best } := by
  unfold work
  split
  all_goals (try split_ifs)
  all_goals exact ⟨_, _, _, rfl⟩

lemma answer_job (l : Loop) (outcome : Outcome) : (l.answer outcome).job = l.job := by
  unfold answer
  split <;> rfl

/-- Nobody takes the mark of cancellation away. -/
lemma cancelled_step (h : l.job.cancelled = true) (timing : Timing) (event : Event) :
    (l.step timing event).job.cancelled = true := by
  cases event with
  | work head now =>
    obtain ⟨deadline, iteration, best, hjob⟩ := l.work_job timing head now
    rw [step, hjob]
    exact h
  | answer outcome =>
    rw [step, answer_job]
    exact h
  | cancel => rfl
  | resolve => exact h

theorem cancelled_run (h : l.job.cancelled = true) (timing : Timing) (events : List Event) :
    (l.run timing events).job.cancelled = true :=
  events.foldlRecOn (motive := fun l : Loop => l.job.cancelled = true) _ h
    fun _ hl event _ => cancelled_step hl timing event

/-- The job is off the table, and its loop has not begun to read the flags, or is at its end. -/
def Withdrawn (l : Loop) : Prop :=
  l.job.cancelled = true ∧ (l.point = .atCancelled ∨ l.point = .ended)

lemma Withdrawn.step (h : l.Withdrawn) (timing : Timing) (event : Event) :
    (l.step timing event).Withdrawn ∧ (l.step timing event).calls = l.calls ∧
      (l.step timing event).published = l.published := by
  have hcancelled := cancelled_step h.1 timing event
  obtain ⟨job, point, calls, published, checks⟩ := l
  obtain ⟨hjob, hpoint⟩ := h
  have hjob : job.cancelled = true := hjob
  have hpoint : point = .atCancelled ∨ point = .ended := hpoint
  cases event with
  | cancel => exact ⟨⟨hcancelled, hpoint⟩, rfl, rfl⟩
  | resolve => exact ⟨⟨hcancelled, hpoint⟩, rfl, rfl⟩
  | answer outcome =>
    obtain rfl | rfl := hpoint
    · exact ⟨⟨hcancelled, .inl rfl⟩, rfl, rfl⟩
    · exact ⟨⟨hcancelled, .inr rfl⟩, rfl, rfl⟩
  | work head now =>
    obtain rfl | rfl := hpoint
    · -- it reads the flag and ends
      unfold Loop.step Loop.work
      dsimp only
      rw [if_pos hjob]
      exact ⟨⟨hjob, .inr rfl⟩, rfl, rfl⟩
    · exact ⟨⟨hcancelled, .inr rfl⟩, rfl, rfl⟩

theorem Withdrawn.run (h : l.Withdrawn) (timing : Timing) (events : List Event) :
    (l.run timing events).calls = l.calls ∧
      (l.run timing events).published = l.published := by
  induction events generalizing l with
  | nil => exact ⟨rfl, rfl⟩
  | cons event events ih =>
    obtain ⟨hstep, hcalls, hpublished⟩ := h.step timing event
    obtain ⟨hcalls', hpublished'⟩ := ih hstep
    rw [run_cons]
    exact ⟨hcalls'.trans hcalls, hpublished'.trans hpublished⟩

end Job.Loop

end ChainHead
