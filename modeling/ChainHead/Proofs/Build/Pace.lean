import Mathlib.Algebra.Order.Floor.Div
import ChainHead.Proofs.Build.Patience
import ChainHead.Proofs.Build.Punctual

/-!
# When a job makes its attempts

A job that is left alone makes an attempt at its start, one after each interval, and a last one at
its deadline, and then it ends (`Coordinator.attempts_on_time`).  The interval is cut where it would
pass the deadline, and the deadline is looked at only after an attempt, so the last attempt is made
right at the deadline, wherever that lies between two intervals.

The builder may succeed or fail as it likes, as long as it answers at once, and other jobs may be
started, removed and asked for meanwhile.  That the attempts noted under the id of the job are its
own is due to the job table, in which no other job has the id (`Coordinator.Tracks.eq_of_id_eq`).

The invariant is `Coordinator.KeepsPace`.  A turn of another job leaves it as it is
(`Coordinator.KeepsPace.turn_of_ne`), and a turn of the job itself, which comes at the very time of
its wake-up, is one attempt (`Coordinator.KeepsPace.turn_self`).
-/

namespace ChainHead

/-! ## The times -/

namespace Timing

variable {t : Timing} {k : Nat}

/-- The number of attempts that a job makes up to its deadline. -/
def attemptCount (t : Timing) : Nat := t.deadline ⌈/⌉ t.interval + 1

/-- How long after its start a job makes an attempt, the first one being number zero. -/
def attemptTime (t : Timing) (k : Nat) : Nat := min (k * t.interval) t.deadline

lemma attemptTime_le_deadline (t : Timing) (k : Nat) : t.attemptTime k ≤ t.deadline :=
  Nat.min_le_right _ _

/-- The last attempt is the one at the deadline. -/
lemma attemptCount_le_succ_iff (hinterval : 1 ≤ t.interval) :
    t.attemptCount ≤ k + 1 ↔ t.deadline ≤ t.attemptTime k := by
  rw [attemptCount, Nat.add_le_add_iff_right, ceilDiv_le_iff_le_mul hinterval, attemptTime,
    Nat.le_min, Nat.mul_comm]
  exact (and_iff_left (Nat.le_refl _)).symm

/-- Before the deadline the next attempt is an interval later, or at the deadline. -/
lemma attemptTime_succ (hinterval : 1 ≤ t.interval) (hlt : t.attemptTime k < t.deadline) :
    t.attemptTime (k + 1) = min t.deadline (t.attemptTime k + max 1 t.interval) := by
  unfold attemptTime at hlt ⊢
  rw [Nat.add_mul, Nat.one_mul]
  omega

end Timing

/-! ## One attempt -/

/-- The builder answers at once, with a payload or without. -/
structure BuilderAnswer.AtOnce (parent : Block) (answer : BuilderAnswer) : Prop where
  delay : answer.delay = 0
  kind : answer.kind = .success ∧ parent.HasRoom ∨ answer.kind = .failure

/-- A job whose payload was not asked for goes on after such an answer, whatever it was. -/
lemma Job.exists_ask_eq_rest {j : Job} {answer : BuilderAnswer} (hanswer : answer.AtOnce j.parent)
    (hresolved : j.resolved = false) (timing : Timing) (now : Nat) :
    ∃ best notices, j.ask timing now answer = ({ j with best } : Job).rest timing now notices := by
  rw [ask, if_pos hanswer.delay]
  obtain ⟨hkind, hroom⟩ | hkind := hanswer.kind
  · obtain ⟨p, hp⟩ := j.order.exists_emptyBlock_iff.2 hroom
    refine ⟨some p, [], ?_⟩
    simp only [hkind, answered, hp]
    rfl
  · have hgoes : (j.resolved && j.best.isNone) ≠ true := by simp [hresolved]
    rw [hkind]
    exact ⟨j.best, [.attemptFailed j.id], if_neg hgoes⟩

namespace Coordinator

variable {c c' fresh : Coordinator} {head : Option Hash} {k n : Nat} {j j' : Job}
  {wake : Wakeup} {due queue : List Wakeup}

/-- What the builder answers to the call with a number. -/
def answerTo (c : Coordinator) (call : Nat) : BuilderAnswer := c.script[call]?.getD .succeed

@[simp] lemma attempts_conclude (c : Coordinator) (k : Nat) (turn : Job.Turn) :
    (c.conclude k turn).attempts = c.attempts := by
  obtain ⟨journal, gauge, heq⟩ := c.conclude_eq_with k turn
  rw [heq]

/-- A turn of a job calls the builder if the job goes on, and else calls nobody. -/
lemma attempts_turn (c : Coordinator) (head : Option Hash) (k : Nat) :
    (c.turn head k).attempts = c.attempts ∨ ∃ j, c.jobs[k]? = some j ∧ j.goesOn head = true ∧
      (c.turn head k).attempts = c.attempts.push ⟨j.id, j.iteration, c.now⟩ := by
  have hends := c.turn_ends head k
  generalize c.turn head k = c' at hends
  cases hends with
  | idle _ => exact .inl rfl
  | @attempt j hj _ hgoes => exact .inr ⟨j, hj, hgoes, attempts_conclude (c.note j) k _⟩
  | quit _ _ _ => exact .inl (attempts_conclude c k _)
  | answer _ _ => exact .inl (attempts_conclude c k _)

lemma turn_of_goesOn (hj : c.jobs[k]? = some j) (hphase : j.phase = .resting)
    (hgoes : j.goesOn head = true) :
    c.turn head k =
      (c.note j).conclude k (j.ask c.timing c.now (c.answerTo c.attempts.size)) := by
  simp only [turn, hj, hphase, hgoes, if_true]
  rfl

/-- An attempt that is answered at once leads to the next one or to the end. -/
lemma jobs_turn_of_goesOn (hj : c.jobs[k]? = some j) (hphase : j.phase = .resting)
    (hgoes : j.goesOn head = true) (hresolved : j.resolved = false)
    (hanswer : (c.answerTo c.attempts.size).AtOnce j.parent) :
    ∃ best phase, (c.turn head k).jobs[k]? =
        some { j with iteration := j.iteration + 1, best, phase } ∧
      (j.deadline ≤ c.now ∧ phase = .ended ∨
        c.now < j.deadline ∧ phase = .resting ∧
          ⟨k, min j.deadline (c.now + max 1 c.timing.interval)⟩ ∈ (c.turn head k).wakeups) := by
  obtain ⟨best, notices, hask⟩ := Job.exists_ask_eq_rest hanswer hresolved c.timing c.now
  have hlt := (List.getElem?_eq_some_iff.1 hj).1
  obtain ⟨journal, gauge, hconclude⟩ := (c.note j).conclude_eq_with k
    (({ j with best } : Job).rest c.timing c.now notices)
  rw [turn_of_goesOn hj hphase hgoes, hask, hconclude]
  refine ⟨best, ?_⟩
  simp only [note, List.getElem?_set_self hlt]
  unfold Job.rest
  dsimp only
  split_ifs with hdeadline
  · exact ⟨.ended, rfl, .inl ⟨hdeadline, rfl⟩⟩
  · refine ⟨.resting, rfl, .inr ⟨Nat.lt_of_not_le hdeadline, rfl, ?_⟩⟩
    exact List.mem_append_right _ (List.mem_singleton_self _)

/-- No two jobs that were not removed have the same id. -/
lemma Tracks.eq_of_id_eq (h : c.Tracks) {k' : Nat} (hj : c.jobs[k]? = some j)
    (hj' : c.jobs[k']? = some j') (hkept : j.cancelled = false) (hkept' : j'.cancelled = false)
    (hid : j.id = j'.id) : k = k' := by
  have hentry {k : Nat} {j : Job} (hj : c.jobs[k]? = some j) (hkept : j.cancelled = false) :
      ∃ entry, c.table.entries.get? j.id = some entry ∧ entry.job = k := by
    obtain ⟨id, entry, hentry, rfl⟩ :=
      (JobTable.mem_jobs_iff h.indexed.nodup).1 ((h.cancelled k j hj).1 hkept)
    obtain ⟨other, hother, hid, -⟩ := h.job id entry hentry
    cases hj.symm.trans hother
    exact ⟨entry, hid ▸ hentry, rfl⟩
  obtain ⟨entry, hget, rfl⟩ := hentry hj hkept
  obtain ⟨entry', hget', rfl⟩ := hentry hj' hkept'
  rw [hid, hget'] at hget
  cases hget
  rfl

/-! ## A job that is left alone -/

/-- How a job was started. -/
structure Launch where
  /-- The timing of the jobs. -/
  timing : Timing
  /-- Its number. -/
  number : Nat
  /-- Its id. -/
  id : PayloadId
  /-- The block its payload stands on. -/
  parent : Block
  /-- The time of its start. -/
  time : Nat
  /-- The number of calls of the builder before. -/
  calls : Nat

namespace Launch

/-- The time at which a job makes the attempt with a number. -/
def timeOf (l : Launch) (k : Nat) : Nat := l.time + l.timing.attemptTime k

/-- The attempt of a job with a number. -/
def attempt (l : Launch) (k : Nat) : Attempt := ⟨l.id, k, l.timeOf k⟩

end Launch

/-- The start of a job under an id. -/
def launch (c : Coordinator) (id : PayloadId) (parent : Block) : Launch where
  timing := c.timing
  number := c.jobs.length
  id := id
  parent := parent
  time := c.now
  calls := c.attempts.size

/-- The attempts that were made under the id of a job since its start. -/
def attemptsOf (c : Coordinator) (l : Launch) : List Attempt :=
  (c.attempts.toList.drop l.calls).filter fun attempt => attempt.id = l.id

/-- Nobody has removed the job or asked for its payload, and the builder has answered all its calls
at once. -/
structure LeavesAlone (l : Launch) (c : Coordinator) : Prop where
  /-- The job is not removed, and its payload is not asked for. -/
  flags : ∀ j, c.jobs[l.number]? = some j → j.cancelled = false ∧ j.resolved = false
  /-- The builder has answered at once, with a payload or without. -/
  answers : ∀ (call : Nat) (attempt : Attempt), l.calls ≤ call →
    c.attempts[call]? = some attempt → attempt.id = l.id → (c.answerTo call).AtOnce l.parent

/-- Where a job stands that has made so many attempts. -/
inductive Stands (l : Launch) (n : Nat) (queue : List Wakeup) (j : Job) : Prop where
  /-- It waits for the next one. -/
  | waits (hphase : j.phase = .resting) (hiteration : j.iteration = n)
      (hlt : n < l.timing.attemptCount) (hwake : ⟨l.number, l.timeOf n⟩ ∈ queue) :
      Stands l n queue j
  /-- It has made all of them. -/
  | ended (hphase : j.phase = .ended) (heq : n = l.timing.attemptCount) : Stands l n queue j

/-- The job has made its first attempts at their times, and stands where it should after them. -/
structure KeepsPace (l : Launch) (n : Nat) (queue : List Wakeup) (c : Coordinator) : Prop where
  timing : c.timing = l.timing
  calls_le : l.calls ≤ c.attempts.size
  attempts : c.attemptsOf l = (List.range n).map l.attempt
  job : ∃ j, c.jobs[l.number]? = some j ∧ j.id = l.id ∧ j.parent = l.parent ∧
    j.deadline = l.time + l.timing.deadline ∧ Stands l n queue j

variable {l : Launch}

lemma attemptsOf_push {attempt : Attempt} (hattempts : c'.attempts = c.attempts.push attempt)
    (hcalls : l.calls ≤ c.attempts.size) :
    c'.attemptsOf l = c.attemptsOf l ++ if attempt.id = l.id then [attempt] else [] := by
  rw [attemptsOf, hattempts, Array.toList_push,
    List.drop_append_of_le_length (by simpa using hcalls), List.filter_append, attemptsOf,
    List.filter_singleton]
  congr 1
  by_cases hid : attempt.id = l.id <;> simp [hid]

/-! ### Whoever disturbs a job once has disturbed it -/

namespace LeavesAlone

/-- Flags stay, and so do the answers of the builder. -/
lemma of_later (h : LeavesAlone l c')
    (hflags : ∀ j, c.jobs[l.number]? = some j → ∃ j', c'.jobs[l.number]? = some j' ∧
      (j.cancelled = true → j'.cancelled = true) ∧ (j.resolved = true → j'.resolved = true))
    (hattempts : ∀ (call : Nat) (attempt : Attempt), c.attempts[call]? = some attempt →
      c'.attempts[call]? = some attempt)
    (hscript : c'.script = c.script) : LeavesAlone l c where
  flags j hj := by
    obtain ⟨j', hj', hcancelled, hresolved⟩ := hflags j hj
    obtain ⟨hkept, hunasked⟩ := h.flags j' hj'
    exact ⟨by simpa [hkept] using hcancelled, by simpa [hunasked] using hresolved⟩
  answers call attempt hcalls hattempt hid := by
    have hanswer := h.answers call attempt hcalls (hattempts call attempt hattempt) hid
    rwa [answerTo, hscript] at hanswer

lemma of_marks (h : LeavesAlone l c') (hmarks : Marks l.number c c')
    (hattempts : c'.attempts = c.attempts) : LeavesAlone l c := by
  refine h.of_later (fun j hj => ?_) (fun _ _ hattempt => hattempts ▸ hattempt) hmarks.script
  obtain ⟨cancelled, resolved, hj', hcancelled, hresolved⟩ := hmarks.job j hj
  exact ⟨_, hj', hcancelled, hresolved⟩

lemma of_turn (h : LeavesAlone l (c.turn head k)) : LeavesAlone l c := by
  have hworks : Works head c (c.turn head k) := .turn c head k
  refine h.of_later (fun j hj => ?_) (fun call attempt hattempt => ?_) hworks.script
  · obtain ⟨j', hj', hevolves⟩ := hworks.evolves l.number j hj
    have hcancelled := Job.cancelled_eq_of_terms hevolves.terms_eq
    exact ⟨j', hj', hcancelled.trans, fun hresolved => (hevolves.turnsLeft_le hresolved).1⟩
  · obtain hsame | ⟨j, -, -, hpush⟩ := c.attempts_turn head k
    · rwa [hsame]
    · obtain ⟨hlt, -⟩ := Array.getElem?_eq_some_iff.1 hattempt
      rwa [hpush, Array.getElem?_push_lt hlt, ← Array.getElem?_eq_getElem hlt]

end LeavesAlone

/-! ### Turns -/

lemma Stands.mono (h : Stands l n queue j) {queue' : List Wakeup}
    (hqueue : ∀ w ∈ queue, w.job = l.number → w ∈ queue') : Stands l n queue' j := by
  cases h with
  | waits hphase hiteration hlt hwake => exact .waits hphase hiteration hlt (hqueue _ hwake rfl)
  | ended hphase heq => exact .ended hphase heq

namespace KeepsPace

/-- What callers do makes no difference to a job that they leave alone. -/
lemma of_marks (h : KeepsPace l n c.wakeups c) (hmarks : Marks l.number c c')
    (hattempts : c'.attempts = c.attempts) (hwakeups : ∀ w ∈ c.wakeups, w ∈ c'.wakeups) :
    KeepsPace l n c'.wakeups c' where
  timing := hmarks.timing.trans h.timing
  calls_le := hattempts ▸ h.calls_le
  attempts := by rw [attemptsOf, hattempts]; exact h.attempts
  job := by
    obtain ⟨j, hj, hid, hparent, hdeadline, hstands⟩ := h.job
    obtain ⟨cancelled, resolved, hj', -, -⟩ := hmarks.job j hj
    refine ⟨_, hj', hid, hparent, hdeadline, ?_⟩
    cases hstands.mono fun w hw _ => hwakeups w hw with
    | waits hphase hiteration hlt hwake => exact .waits hphase hiteration hlt hwake
    | ended hphase heq => exact .ended hphase heq

/-- A turn of another job is noted under another id, if it is noted. -/
lemma turn_of_ne (h : KeepsPace l n (wake :: (due ++ c.wakeups)) c) (htracks : c.Tracks)
    (halone : LeavesAlone l c) (hne : wake.job ≠ l.number) (head : Option Hash) :
    KeepsPace l n (due ++ (c.turn head wake.job).wakeups) (c.turn head wake.job) := by
  have hworks : Works head c (c.turn head wake.job) := .turn c head wake.job
  obtain ⟨j, hj, hid, hparent, hdeadline, hstands⟩ := h.job
  have hattempts : (c.turn head wake.job).attemptsOf l = c.attemptsOf l ∧
      c.attempts.size ≤ (c.turn head wake.job).attempts.size := by
    obtain hsame | ⟨other, hother, hgoes, hpush⟩ := c.attempts_turn head wake.job
    · exact ⟨by rw [attemptsOf, hsame, attemptsOf], by rw [hsame]⟩
    · have hkept : other.cancelled = false := by
        simp only [Job.goesOn, Bool.and_eq_true, Bool.not_eq_true'] at hgoes
        exact hgoes.1.1
      have hdiffer : other.id ≠ l.id := fun heq =>
        hne (htracks.eq_of_id_eq hother hj hkept (halone.flags j hj).1 (heq.trans hid.symm))
      rw [attemptsOf_push hpush h.calls_le, if_neg hdiffer, List.append_nil, hpush]
      exact ⟨rfl, by simp⟩
  have hjob := (getElem?_jobs_turn hne c head).trans hj
  refine ⟨hworks.timing.trans h.timing, Nat.le_trans h.calls_le hattempts.2,
    hattempts.1.trans h.attempts, j, hjob, hid, hparent, hdeadline,
    hstands.mono fun w hw hself => ?_⟩
  obtain rfl | hw := List.mem_cons.1 hw
  · exact absurd hself hne
  · obtain hw | hw := List.mem_append.1 hw
    · exact List.mem_append_left _ hw
    · exact List.mem_append_right _ (mem_wakeups_turn hw head _)

/-- A turn of the job itself is its next attempt. -/
lemma turn_self (h : KeepsPace l n (wake :: (due ++ c.wakeups)) c)
    (hqueued : c.Queued (wake :: (due ++ c.wakeups)))
    (halone : LeavesAlone l (c.turn (some l.parent.hash) wake.job)) (hself : wake.job = l.number)
    (htime : wake.time = c.now) (hinterval : 1 ≤ l.timing.interval) :
    KeepsPace l (n + 1) (due ++ (c.turn (some l.parent.hash) wake.job).wakeups)
      (c.turn (some l.parent.hash) wake.job) := by
  have hworks : Works (some l.parent.hash) c (c.turn (some l.parent.hash) wake.job) :=
    .turn c _ wake.job
  obtain ⟨j, hj, hid, hparent, hdeadline, hstands⟩ := h.job
  rw [← hself] at hj
  obtain ⟨hkept, hunasked⟩ := halone.of_turn.flags j (hself ▸ hj)
  cases hstands with
  | ended hphase _ =>
    -- a job that has ended waits for no turn
    have hactive := (hqueued.mem_iff wake.job).1 List.mem_cons_self
    simp [isActive, hj, Job.isFinished, hphase] at hactive
  | waits hphase hiteration hlt hwake =>
    have hnow : l.timeOf n = c.now := by
      rw [← htime, List.inj_on_of_nodup_map hqueued.nodup List.mem_cons_self hwake hself]
    have hgoes : j.goesOn (some l.parent.hash) = true := by
      simp [Job.goesOn, hkept, hunasked, hparent]
    have hpush : (c.turn (some l.parent.hash) wake.job).attempts =
        c.attempts.push ⟨j.id, j.iteration, c.now⟩ := by
      rw [turn_of_goesOn hj hphase hgoes, attempts_conclude]
      rfl
    have hanswer : (c.answerTo c.attempts.size).AtOnce j.parent := by
      have hanswer := halone.answers c.attempts.size ⟨j.id, j.iteration, c.now⟩ h.calls_le
        (by rw [hpush, Array.getElem?_push_size]) hid
      rwa [answerTo, hworks.script, ← hparent] at hanswer
    obtain ⟨best, phase, hafter, hends⟩ :=
      jobs_turn_of_goesOn hj hphase hgoes hunasked hanswer
    refine ⟨hworks.timing.trans h.timing, ?_, ?_,
      { j with iteration := j.iteration + 1, best, phase }, by rwa [← hself], hid, hparent,
      hdeadline, ?_⟩
    · rw [hpush, Array.size_push]
      exact Nat.le_succ_of_le h.calls_le
    · rw [attemptsOf_push hpush h.calls_le, h.attempts, List.range_succ, List.map_append,
        if_pos hid, List.map_singleton, Launch.attempt, hnow, hid, hiteration]
    · have hlast := Timing.attemptCount_le_succ_iff (k := n) hinterval
      rw [h.timing, hdeadline, ← hnow] at hends
      unfold Launch.timeOf at hends
      obtain ⟨hlate, hended⟩ | ⟨hearly, hresting, hnext⟩ := hends
      · exact .ended hended (Nat.le_antisymm hlt (hlast.2 (by omega)))
      · have hmore : n + 1 < l.timing.attemptCount := by omega
        refine .waits hresting (congrArg (· + 1) hiteration) hmore (List.mem_append_right _ ?_)
        rw [Launch.timeOf, Timing.attemptTime_succ hinterval (by omega), ← Nat.add_min_add_left,
          ← Nat.add_assoc, ← hself]
        exact hnext

/-- The turns of all that are due leave the job where it should be, with all its own among them. -/
lemma foldl_turn (due : List Wakeup) (hqueued : c.Queued (due ++ c.wakeups)) (htracks : c.Tracks)
    (htimes : ∀ w ∈ due, w.time = c.now) (hinterval : 1 ≤ l.timing.interval)
    (h : LeavesAlone l c → ∃ n, KeepsPace l n (due ++ c.wakeups) c)
    (halone : LeavesAlone l
      ((due.map Wakeup.job).foldl (fun c k => c.turn (some l.parent.hash) k) c)) :
    ∃ n, KeepsPace l n
      ((due.map Wakeup.job).foldl (fun c k => c.turn (some l.parent.hash) k) c).wakeups
      ((due.map Wakeup.job).foldl (fun c k => c.turn (some l.parent.hash) k) c) := by
  induction due generalizing c with
  | nil => exact h halone
  | cons wake due ih =>
    refine ih (hqueued.turn _) (htracks.works (.turn c _ wake.job)) (fun w hw => ?_)
      (fun halone => ?_) halone
    · rw [now_turn]
      exact htimes w (List.mem_cons_of_mem _ hw)
    · obtain ⟨n, hn⟩ := h halone.of_turn
      by_cases hself : wake.job = l.number
      · exact ⟨n + 1, hn.turn_self hqueued halone hself (htimes wake List.mem_cons_self) hinterval⟩
      · exact ⟨n, hn.turn_of_ne htracks halone.of_turn hself _⟩

end KeepsPace

/-! ### Runs -/

/-- The job keeps its pace among others, as long as nobody disturbs it. -/
structure Paced (l : Launch) (c : Coordinator) : Prop where
  timely : c.Timely
  scheduled : c.Scheduled
  tracks : c.Tracks
  keeps : LeavesAlone l c → ∃ n, KeepsPace l n c.wakeups c

namespace Paced

lemma keeps_of_marks (h : Paced l c) (hmarks : Marks l.number c c')
    (hattempts : c'.attempts = c.attempts) (hwakeups : ∀ w ∈ c.wakeups, w ∈ c'.wakeups)
    (halone : LeavesAlone l c') : ∃ n, KeepsPace l n c'.wakeups c' := by
  obtain ⟨n, hn⟩ := h.keeps (halone.of_marks hmarks hattempts)
  exact ⟨n, hn.of_marks hmarks hattempts hwakeups⟩

lemma keeps_runDue (h : Paced l c) (hinterval : 1 ≤ l.timing.interval)
    (halone : LeavesAlone l (c.runDue (some l.parent.hash))) :
    ∃ n, KeepsPace l n (c.runDue (some l.parent.hash)).wakeups
      (c.runDue (some l.parent.hash)) := by
  refine KeepsPace.foldl_turn (c := { c with wakeups := c.wakeups.filter fun w => c.now < w.time })
    (c.wakeups.filter fun w => w.time ≤ c.now)
    ((h.scheduled.of_perm c.perm_wakeups).of_eq rfl rfl) (h.tracks.of_eq rfl rfl)
    (fun w hw => ?_) hinterval (fun halone => ?_) halone
  · obtain ⟨hmem, hdue⟩ := List.mem_filter.1 hw
    exact h.timely.time_eq hmem (by simpa using hdue)
  · obtain ⟨n, hn⟩ := h.keeps ⟨halone.flags, halone.answers⟩
    obtain ⟨j, hj, hid, hparent, hdeadline, hstands⟩ := hn.job
    exact ⟨n, hn.timing, hn.calls_le, hn.attempts, j, hj, hid, hparent, hdeadline,
      hstands.mono fun w hw _ => c.perm_wakeups.mem_iff.1 hw⟩

theorem beat (h : Paced l c) (hbeat : Beat (some l.parent.hash) c c')
    (hinterval : 1 ≤ l.timing.interval) : Paced l c' where
  timely := hbeat.timely h.timely
  scheduled := h.scheduled.tick hbeat.tick
  tracks := h.tracks.works hbeat.works
  keeps := by
    cases hbeat with
    | runDue => exact h.keeps_runDue hinterval
    | resolve _ => exact h.keeps_of_marks (.resolve c _) rfl fun _ hw => hw
    | tell _ => exact h.keeps_of_marks (.of_eq rfl rfl rfl) rfl fun _ hw => hw
    | wait _ _ => exact h.keeps_of_marks (.of_eq rfl rfl rfl) rfl fun _ hw => hw

theorem beats (h : Paced l c) (hbeats : Beats (some l.parent.hash) c c')
    (hinterval : 1 ≤ l.timing.interval) : Paced l c' := by
  induction hbeats with
  | refl => exact h
  | tail _ hbeat ih => exact ih.beat hbeat hinterval

theorem call (h : Paced l c) (hcall : Call c c') : Paced l c' where
  timely := hcall.instant.timely h.timely
  scheduled := scheduled_of_happens (.single hcall.happens) h.scheduled
  tracks := tracks_of_happens (.single hcall.happens) h.tracks
  keeps := h.keeps_of_marks (hcall.marks _) hcall.instant.attempts
    fun _ hw => hcall.instant.mem_wakeups hw

theorem run (h : Paced l c)
    (hrun : Relation.ReflTransGen (HappensUnder (some l.parent.hash)) c c')
    (hinterval : 1 ≤ l.timing.interval) : Paced l c' := by
  induction hrun with
  | refl => exact h
  | tail _ hunder ih =>
    obtain hcall | hbeats := hunder.call_or_beats ih.timely
    · exact ih.call hcall
    · exact ih.beats hbeats hinterval

end Paced

/-! ## The start -/

/-- A job is started on a block. -/
inductive Starts (c : Coordinator) (id : PayloadId) (parent : Block) : Coordinator → Prop where
  /-- It is started under some free id. -/
  | startAs (a : PayloadAttributes) (hpoisoned : c.poisoned = false)
      (hfree : (c.makeRoom parent.hash).2.table.entries.get? id = none) :
      Starts c id parent (c.startAs id parent a).after
  /-- It is started under an id that the coordinator draws. -/
  | start (a : PayloadAttributes) (hid : (c.start parent a).result = .ok id) :
      Starts c id parent (c.start parent a).after

namespace Starts

variable {id : PayloadId} {parent : Block}

lemma call (hstart : Starts c id parent c') : Call c c' := by
  cases hstart with
  | startAs a _ hfree => exact .startAs id parent a hfree
  | start a _ => exact .start parent a

/-- At its start a job is before its first attempt, which is due at once. -/
lemma keepsPace (hstart : Starts c id parent c') :
    KeepsPace (c.launch id parent) 0 c'.wakeups c' := by
  have hplaced (a : PayloadAttributes) (hpoisoned : c.poisoned = false) :
      KeepsPace (c.launch id parent) 0 (c.startAs id parent a).after.wakeups
        (c.startAs id parent a).after := by
    obtain ⟨jobs, table, hroom, hlength⟩ := c.makeRoom_eq_with parent.hash
    simp only [Coordinator.startAs, hpoisoned, Bool.false_eq_true, if_false, hroom]
    refine ⟨rfl, Nat.le_refl _, ?_,
      { id, parent, attributes := a, deadline := c.now + c.timing.deadline }, ?_, rfl, rfl, rfl,
      .waits rfl rfl (Nat.succ_pos _) ?_⟩
    · show ((c.attempts.toList.drop c.attempts.size).filter _) = []
      rw [List.drop_of_length_le (Nat.le_of_eq Array.length_toList), List.filter_nil]
    · show (jobs ++ [_])[c.jobs.length]? = _
      rw [← hlength, List.getElem?_concat_length]
    · refine List.mem_append_right _ (List.mem_singleton.2 ?_)
      simp [launch, Launch.timeOf, Timing.attemptTime, hlength]
  cases hstart with
  | startAs a hpoisoned _ => exact hplaced a hpoisoned
  | start a hid =>
    by_cases hpoisoned : c.poisoned = true
    · simp only [Coordinator.start, Coordinator.startAs, if_pos hpoisoned] at hid
      cases hid
    obtain rfl : draw (c.makeRoom parent.hash).2.nextFree = id := by
      simpa only [Coordinator.start, Coordinator.startAs, if_neg hpoisoned, Except.ok.injEq]
        using hid
    obtain ⟨htiming, hcalls, hattempts, hjob⟩ := hplaced a (Bool.eq_false_iff.2 hpoisoned)
    exact ⟨htiming, hcalls, hattempts, hjob⟩

lemma paced (hstart : Starts c id parent c') (htimely : c.Timely) (hscheduled : c.Scheduled)
    (htracks : c.Tracks) : Paced (c.launch id parent) c' where
  timely := hstart.call.instant.timely htimely
  scheduled := scheduled_of_happens (.single hstart.call.happens) hscheduled
  tracks := tracks_of_happens (.single hstart.call.happens) htracks
  keeps _ := ⟨0, hstart.keepsPace⟩

end Starts

/-- Let a job be started on the head of the chain, which stays where it is, and let nobody remove
the job or ask for its payload.  If the builder always answers at once, whatever its answers are,
then the attempts of the job are those of the numbers from zero up to the deadline over the
interval, rounded up.  Each of them is made as many intervals after the start as its number says, or
at the deadline if that is earlier, and none is made later.

At any time the first of them have been made, and the next one is not overdue.  Once the deadline is
past, or is there and nothing is due, all of them have been made, and the job has ended. -/
theorem attempts_on_time {id : PayloadId} {parent : Block} {started : Coordinator}
    (hfresh : fresh.Fresh) (hwakeups : fresh.wakeups = [])
    (hbefore : Relation.ReflTransGen Happens fresh c) (hstart : Starts c id parent started)
    (hinterval : 1 ≤ c.timing.interval)
    (hrun : Relation.ReflTransGen (HappensUnder (some parent.hash)) started c')
    (halone : LeavesAlone (c.launch id parent) c') :
    ∃ n j, c'.jobs[c.jobs.length]? = some j ∧ j.id = id ∧
      c'.attemptsOf (c.launch id parent) = (List.range n).map (fun k =>
        ⟨id, k, c.now + min (k * c.timing.interval) c.timing.deadline⟩) ∧
      (∀ attempt ∈ c'.attemptsOf (c.launch id parent),
        attempt.time ≤ c.now + c.timing.deadline) ∧
      (n < c.timing.deadline ⌈/⌉ c.timing.interval + 1 ∧ j.phase = .resting ∧
          c'.now ≤ c.now + min (n * c.timing.interval) c.timing.deadline ∨
        n = c.timing.deadline ⌈/⌉ c.timing.interval + 1 ∧ j.phase = .ended) ∧
      (c.now + c.timing.deadline < c'.now ∨ c.now + c.timing.deadline ≤ c'.now ∧ c'.Rested →
        n = c.timing.deadline ⌈/⌉ c.timing.interval + 1) := by
  have hpaced := (hstart.paced (timely_of_happens hbefore (by simp [Timely, hwakeups]))
    (scheduled_of_happens hbefore (hfresh.scheduled hwakeups))
    (tracks_of_happens hbefore hfresh.tracks)).run hrun hinterval
  obtain ⟨n, hn⟩ := hpaced.keeps halone
  obtain ⟨j, hj, hid, -, -, hstands⟩ := hn.job
  refine ⟨n, j, hj, hid, hn.attempts, fun attempt hattempt => ?_, ?_, ?_⟩
  · rw [hn.attempts] at hattempt
    obtain ⟨k, -, rfl⟩ := List.mem_map.1 hattempt
    exact Nat.add_le_add_left (c.timing.attemptTime_le_deadline k) c.now
  · cases hstands with
    | waits hphase _ hlt hwake => exact .inl ⟨hlt, hphase, hpaced.timely _ hwake⟩
    | ended hphase heq => exact .inr ⟨heq, hphase⟩
  · intro hlate
    cases hstands with
    | ended _ heq => exact heq
    | waits _ _ _ hwake =>
      -- the wake-up for the next attempt would be missed
      have hnext : (c.launch id parent).timeOf n ≤ c.now + c.timing.deadline :=
        Nat.add_le_add_left (c.timing.attemptTime_le_deadline n) c.now
      have hahead := hpaced.timely _ hwake
      obtain hpast | ⟨hthere, hrested⟩ := hlate
      · exact absurd (Nat.le_trans hahead hnext) (Nat.not_le.2 hpast)
      · exact absurd (Nat.lt_of_lt_of_le (hrested _ hwake) hnext) (Nat.not_lt.2 hthere)

/-- A coordinator whose jobs work for twelve milliseconds, with an attempt every five. -/
def hasty : Coordinator where
  timing := { intervalMs := 5, deadlineMs := 12 }
  script := [.fail, .succeed, .fail]

/-- The coordinator with one job. -/
def hastyJob : Coordinator := (hasty.startAs (.zero 8) baseBlock nextAttributes).after

/-- The coordinator long after. -/
def hastyEnd : Coordinator := hastyJob.runUntil (some baseBlock.hash) 100

lemma leavesAlone_hastyEnd : LeavesAlone (hasty.launch (.zero 8) baseBlock) hastyEnd where
  flags := by
    have hflags : hastyEnd.jobs[0]?.all (fun j => ! j.cancelled && ! j.resolved) = true := by
      decide +kernel
    intro j hj
    have hj : hastyEnd.jobs[0]? = some j := hj
    simpa [hj] using hflags
  answers call attempt _ _ _ := by
    have hroom : baseBlock.HasRoom := by unfold Block.HasRoom; decide
    have hscript : hastyEnd.script = [.fail, .succeed, .fail] :=
      (Moves.runUntil hastyJob (some baseBlock.hash) 100).works.script
    have hsucceeds : BuilderAnswer.succeed.AtOnce baseBlock := ⟨rfl, .inl ⟨rfl, hroom⟩⟩
    have hfails : BuilderAnswer.fail.AtOnce baseBlock := ⟨rfl, .inr rfl⟩
    rw [answerTo, hscript]
    match call with
    | 0 => exact hfails
    | 1 => exact hsucceeds
    | 2 => exact hfails
    | _ + 3 => exact hsucceeds

/-- The last attempt is made at the deadline, two milliseconds after the one before. -/
theorem attempts_on_time_hastyEnd :
    hasty.Fresh ∧ hasty.wakeups = [] ∧ Starts hasty (.zero 8) baseBlock hastyJob ∧
      1 ≤ hasty.timing.interval ∧
      Relation.ReflTransGen (HappensUnder (some baseBlock.hash)) hastyJob hastyEnd ∧
      LeavesAlone (hasty.launch (.zero 8) baseBlock) hastyEnd ∧
      hastyEnd.attemptsOf (hasty.launch (.zero 8) baseBlock) =
        [⟨.zero 8, 0, 0⟩, ⟨.zero 8, 1, 5⟩, ⟨.zero 8, 2, 10⟩, ⟨.zero 8, 3, 12⟩] ∧
      ∃ j, hastyEnd.jobs[0]? = some j ∧ j.phase = .ended := by
  have hfresh : hasty.Fresh := ⟨rfl, rfl⟩
  have hstart : Starts hasty (.zero 8) baseBlock hastyJob := .startAs nextAttributes rfl rfl
  have hrun : Relation.ReflTransGen (HappensUnder (some baseBlock.hash)) hastyJob hastyEnd :=
    .single (.runUntil (Nat.zero_le _))
  have hinterval : 1 ≤ hasty.timing.interval := by decide
  refine ⟨hfresh, rfl, hstart, hinterval, hrun, leavesAlone_hastyEnd, ?_⟩
  obtain ⟨n, j, hj, -, hattempts, -, hstands, hlate⟩ :=
    attempts_on_time hfresh rfl .refl hstart hinterval hrun leavesAlone_hastyEnd
  have hnow : hastyEnd.now = 100 := now_runUntil _ _ _
  obtain rfl := hlate (.inl (hnow ▸ by decide))
  refine ⟨hattempts, j, hj, ?_⟩
  obtain ⟨hlt, -⟩ | ⟨-, hended⟩ := hstands
  · exact absurd hlt (Nat.lt_irrefl _)
  · exact hended

end Coordinator

end ChainHead
