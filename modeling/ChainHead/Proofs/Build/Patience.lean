import ChainHead.Proofs.Build.Clock

/-!
# Whoever asks for a payload is answered

A job whose payload was asked for has at most two turns left before it publishes or ends: one that
calls the builder, and one that takes its answer (`Job.turnsLeft`).  Its own turns use them up, and
nothing that others do adds to them.  No turn of it is missed, so whoever waits for two of its turns
is answered, and without a payload only if the job has ended (`Coordinator.retrieve_answers`).
-/

namespace ChainHead

/-! ## One job -/

namespace Job

variable {timing : Timing} {script : List BuilderAnswer} {head : Option Hash} {now : Nat}
  {j j' : Job}

/-- The job has a payload or is at its end. -/
def Decided (j : Job) : Prop := j.best.isSome = true ∨ j.isFinished = true

instance (j : Job) : Decidable j.Decided := inferInstanceAs (Decidable (_ ∨ _))

/-- The number of turns after which a job whose payload was asked for has decided. -/
def turnsLeft (j : Job) : Nat :=
  if j.Decided then 0
  else
    match j.phase with
    | .building _ => 1
    | _ => 2

lemma turnsLeft_of_decided (h : j.Decided) : j.turnsLeft = 0 := if_pos h

lemma decided_of_turnsLeft (h : j.turnsLeft = 0) : j.Decided := by
  by_contra hnot
  rw [turnsLeft, if_neg hnot] at h
  cases hphase : j.phase <;> simp [hphase] at h

lemma turnsLeft_le (j : Job) : j.turnsLeft ≤ 2 := by
  unfold turnsLeft
  split_ifs
  · omega
  · split <;> omega

/-- With its payload asked for, a job decides when the builder answers. -/
lemma decided_answered (hresolved : j.resolved = true) (timing : Timing) (now : Nat)
    (kind : BuilderAnswer.Kind) : (j.answered timing now kind).job.Decided := by
  cases kind with
  | success =>
    unfold answered
    dsimp only
    split
    next p _ =>
      obtain ⟨phase, hrest⟩ := (j.publish p).rest_job timing now []
      rw [hrest]
      exact .inl rfl
    next => exact .inr rfl
  | crash => exact .inr rfl
  | failure =>
    unfold answered
    dsimp only
    split_ifs with hnothing
    · exact .inr rfl
    · obtain ⟨phase, hrest⟩ := j.rest_job timing now [.attemptFailed j.id]
      rw [hrest]
      refine .inl ?_
      rw [hresolved, Bool.true_and] at hnothing
      exact Option.isSome_iff_ne_none.2 fun hnone => hnothing (hnone ▸ rfl)

lemma turnsLeft_ask_le (hresolved : j.resolved = true) (timing : Timing) (now : Nat)
    (answer : BuilderAnswer) : (j.ask timing now answer).job.turnsLeft ≤ 1 := by
  unfold ask
  split_ifs
  · rw [turnsLeft_of_decided (decided_answered hresolved timing now answer.kind)]
    exact Nat.zero_le _
  · unfold turnsLeft
    split_ifs
    · exact Nat.zero_le _
    · exact Nat.le_refl _

/-- Nothing takes the payload from a job, and nothing brings it back from its end. -/
lemma Step.decided (h : Step timing script head j j') (hdecided : j.Decided) : j'.Decided := by
  obtain hbest | hfinished := hdecided
  · exact .inl (h.isSome_best hbest)
  cases h with
  | attempt _ hphase _ _ => simp [isFinished, hphase] at hfinished
  | quit hphase _ => simp [isFinished, hphase] at hfinished
  | answer _ hphase => simp [isFinished, hphase] at hfinished
  | resolve => exact .inr hfinished

lemma Step.resolved (h : Step timing script head j j') (hresolved : j.resolved = true) :
    j'.resolved = true := by
  cases h with
  | @attempt answer now _ _ _ =>
    unfold ask
    split_ifs
    · obtain ⟨phase, iteration, best, hjob, -⟩ := j.answered_job timing now answer.kind
      exact hjob ▸ hresolved
    · exact hresolved
  | quit _ _ => exact j.quit_job ▸ hresolved
  | @answer kind now _ =>
    obtain ⟨phase, iteration, best, hjob, -⟩ := j.answered_job timing now kind
    exact hjob ▸ hresolved
  | resolve => rfl

lemma Step.turnsLeft_le (h : Step timing script head j j') (hresolved : j.resolved = true) :
    j'.turnsLeft ≤ j.turnsLeft := by
  by_cases hdecided : j'.Decided
  · rw [turnsLeft_of_decided hdecided]
    exact Nat.zero_le _
  have hopen : ¬ j.Decided := mt h.decided hdecided
  cases h with
  | attempt now hphase _ _ =>
    have hleft : j.turnsLeft = 2 := by rw [turnsLeft, if_neg hopen, hphase]
    rw [hleft]
    exact Nat.le_succ_of_le (turnsLeft_ask_le hresolved timing now _)
  | quit _ _ => exact absurd (.inr (j.quit_job ▸ rfl)) hdecided
  | answer now _ => exact absurd (decided_answered hresolved timing now _) hdecided
  | resolve => exact Nat.le_of_eq rfl

/-- Nothing that happens gives the job more turns. -/
theorem Evolves.turnsLeft_le (h : Evolves timing script head j j') (hresolved : j.resolved = true) :
    j'.resolved = true ∧ j'.turnsLeft ≤ j.turnsLeft := by
  induction h with
  | refl => exact ⟨hresolved, Nat.le_refl _⟩
  | tail _ hstep ih => exact ⟨hstep.resolved ih.1, Nat.le_trans (hstep.turnsLeft_le ih.1) ih.2⟩

end Job

/-! ## Among other jobs -/

namespace Coordinator

variable {c c' : Coordinator} {head : Option Hash} {id : PayloadId} {k n : Nat} {w : Wakeup}

/-- The payload of the job was asked for, and the job decides in so many turns. -/
def DecidesIn (k n : Nat) (c : Coordinator) : Prop :=
  ∃ j, c.jobs[k]? = some j ∧ j.resolved = true ∧ j.turnsLeft ≤ n

namespace DecidesIn

lemma works (h : c.DecidesIn k n) (hworks : Works head c c') : c'.DecidesIn k n := by
  obtain ⟨j, hj, hresolved, hleft⟩ := h
  obtain ⟨j', hj', hevolves⟩ := hworks.evolves k j hj
  obtain ⟨hresolved', hle⟩ := hevolves.turnsLeft_le hresolved
  exact ⟨j', hj', hresolved', Nat.le_trans hle hleft⟩

/-- After a turn of the job there is one less to wait for. -/
lemma turn (h : c.DecidesIn k n) (head : Option Hash) : (c.turn head k).DecidesIn k (n - 1) := by
  obtain ⟨j, hj, hresolved, hleft⟩ := h
  obtain ⟨j', hj', hevolves⟩ := (Works.turn c head k).evolves k j hj
  obtain ⟨hresolved', hle⟩ := hevolves.turnsLeft_le hresolved
  refine ⟨j', hj', hresolved', ?_⟩
  by_cases hdecided : j.Decided
  · have hnone := Job.turnsLeft_of_decided hdecided
    omega
  have hlt := (List.getElem?_eq_some_iff.1 hj).1
  have hconclude (c' : Coordinator) (hjobs : c'.jobs = c.jobs) {turn : Job.Turn}
      (hafter : (c'.conclude k turn).jobs[k]? = some j') : turn.job = j' := by
    obtain ⟨journal, gauge, heq⟩ := c'.conclude_eq_with k turn
    rw [heq, hjobs, List.getElem?_set_self hlt] at hafter
    exact Option.some.inj hafter
  have hends := c.turn_ends head k
  generalize c.turn head k = c' at hends hj'
  cases hends with
  | idle hidle =>
    refine absurd (.inr ?_) hdecided
    obtain hphase | hphase := hidle j hj
    · simp [Job.isFinished, hphase]
    · simp [Job.isFinished, hphase]
  | attempt hj₁ hphase _ =>
    cases hj.symm.trans hj₁
    have hask := Job.turnsLeft_ask_le hresolved c.timing c.now c.nextAnswer
    rw [hconclude (c.note j) rfl hj'] at hask
    have htwo : j.turnsLeft = 2 := by rw [Job.turnsLeft, if_neg hdecided, hphase]
    omega
  | quit hj₁ _ _ =>
    cases hj.symm.trans hj₁
    have hquit : j'.Decided := .inr (by rw [← hconclude c rfl hj', Job.quit_job]; rfl)
    rw [Job.turnsLeft_of_decided hquit]
    exact Nat.zero_le _
  | @answer _ answer hj₁ _ =>
    cases hj.symm.trans hj₁
    have hanswered := Job.decided_answered hresolved c.timing c.now answer
    rw [hconclude c rfl hj'] at hanswered
    rw [Job.turnsLeft_of_decided hanswered]
    exact Nat.zero_le _

lemma settle_of_due (h : c.DecidesIn k n) (head : Option Hash) (hdue : k ∈ c.due) :
    (c.settle head).DecidesIn k (n - 1) :=
  Moves.settle_of_due (P := DecidesIn k n) (Q := DecidesIn k (n - 1))
    (fun _ _ hworks h => h.works hworks) (fun _ h => h.turn head)
    (fun _ _ hworks h => h.works hworks) hdue h

end DecidesIn

/-! ## Waiting for a turn -/

/-- A wake-up stays until its time has come. -/
lemma mem_wakeups_settle (hw : w ∈ c.wakeups) (hlater : c.now < w.time) (head : Option Hash) :
    w ∈ (c.settle head).wakeups := by
  have hdue : w ∈ (c.runDue head).wakeups :=
    c.due.foldlRecOn (motive := fun c : Coordinator => w ∈ c.wakeups) _
      (List.mem_filter.2 ⟨hw, by simpa using hlater⟩) fun _ hc k _ => mem_wakeups_turn hc head k
  exact serveAll_induction (P := fun c => w ∈ c.wakeups) (fun _ _ _ _ h => h) hdue _

/-- Who waits until the wake-up of a job has seen a turn of it. -/
lemma DecidesIn.runFor (h : c.DecidesIn w.job n) (hrested : c.Rested) (hw : w ∈ c.wakeups)
    {limit fuel : Nat} (htime : w.time ≤ limit) (hfuel : limit ≤ c.now + fuel) :
    (runFor head limit fuel c).DecidesIn w.job (n - 1) := by
  induction fuel generalizing c with
  | zero =>
    have hlater := hrested w hw
    omega
  | succ fuel ih =>
    cases hnext : c.nextTime? with
    | none => simp [wakeups_of_nextTime?_eq_none hnext] at hw
    | some time =>
      have hle := nextTime?_le hnext hw
      obtain ⟨first, hfirst, rfl⟩ := List.mem_map.1 (List.min?_mem hnext)
      have hlater := hrested first hfirst
      have hnow : max c.now first.time = first.time := by omega
      simp only [Coordinator.runFor, hnext, if_neg (Nat.not_lt.2 (Nat.le_trans hle htime)), hnow]
      have hwoken : DecidesIn w.job n { c with now := first.time } := h
      by_cases hdue : w.time = first.time
      · -- its own wake-up is among the next ones
        have hdue : w.job ∈ { c with now := first.time }.due :=
          List.mem_map.2 ⟨w, List.mem_filter.2 ⟨hw, by simp [hdue]⟩, rfl⟩
        exact (hwoken.settle_of_due head hdue).works (Moves.runFor head limit fuel _).works
      · have hkept : w ∈ ({ c with now := first.time }.settle head).wakeups :=
          mem_wakeups_settle (c := { c with now := first.time }) hw
            (Nat.lt_of_le_of_ne hle (Ne.symm hdue)) head
        refine ih (hwoken.works (Moves.settle _ head).works) (rested_settle _ head) hkept ?_
        rw [now_settle]
        show limit ≤ first.time + fuel
        omega

namespace DecidesIn

lemma of_decided {j : Job} (hj : c.jobs[k]? = some j) (hresolved : j.resolved = true)
    (hdecided : j.Decided) : c.DecidesIn k n :=
  ⟨j, hj, hresolved, by rw [Job.turnsLeft_of_decided hdecided]; exact Nat.zero_le n⟩

lemma runTurnOf (h : c.DecidesIn k n) (hrested : c.Rested) (hscheduled : c.Scheduled)
    (head : Option Hash) : (c.runTurnOf head k).DecidesIn k (n - 1) := by
  unfold Coordinator.runTurnOf
  split
  next w hfind =>
    obtain rfl : w.job = k := by simpa using List.find?_some hfind
    exact h.runFor hrested (List.mem_of_find?_eq_some hfind) (Nat.le_refl _) (by omega)
  next hfind =>
    -- without a wake-up the job is at its end
    obtain ⟨j, hj, hresolved, -⟩ := h
    refine of_decided hj hresolved (.inr ?_)
    by_contra hworks
    have hwaits := (hscheduled.mem_iff k).2 (isActive_iff.2 ⟨j, hj, by simpa using hworks⟩)
    obtain ⟨w, hw, hjob⟩ := List.mem_map.1 hwaits
    simpa [hjob] using List.find?_eq_none.1 hfind w hw

/-- Whoever waits for the payload gets what the job has then, and only where the job has ended may
that be nothing. -/
theorem await (h : c.DecidesIn k 2) (hscheduled : c.Scheduled) (head : Option Hash) :
    (c.await head k).1 = (c.await head k).2.best? k ∧
      ((c.await head k).1 = none → (c.await head k).2.isActive k = false) := by
  -- one of the two rounds
  have hround {c : Coordinator} {n : Nat} (h : c.DecidesIn k n) (hrested : c.Rested)
      (hscheduled : c.Scheduled) :
      (if (c.best? k).isSome then c else c.runTurnOf head k).DecidesIn k (n - 1) ∧
        (if (c.best? k).isSome then c else c.runTurnOf head k).Rested ∧
        (if (c.best? k).isSome then c else c.runTurnOf head k).Scheduled := by
    split_ifs with hbest
    · obtain ⟨j, hj, hresolved, -⟩ := h
      rw [best?, hj, Option.bind_some] at hbest
      exact ⟨of_decided hj hresolved (.inl hbest), hrested, hscheduled⟩
    · exact ⟨h.runTurnOf hrested hscheduled head, hrested.runTurnOf head k,
        hscheduled.ticks (.runTurnOf hrested head k)⟩
  unfold Coordinator.await
  split_ifs with hdone
  · refine ⟨rfl, fun hnone => ?_⟩
    have hnone : c.best? k = none := hnone
    simpa [hnone] using hdone
  · obtain ⟨hfirst, hrested, hscheduled⟩ :=
      hround (h.works (Moves.settle c head).works) (c.rested_settle head)
        (hscheduled.ticks (.settle c head))
    obtain ⟨⟨j, hj, -, hleft⟩, -, -⟩ := hround hfirst hrested hscheduled
    refine ⟨rfl, fun hnone => ?_⟩
    dsimp only at hnone ⊢
    rw [best?, hj, Option.bind_some] at hnone
    obtain hbest | hfinished := Job.decided_of_turnsLeft (Nat.le_zero.1 hleft)
    · simp [hnone] at hbest
    · simp [isActive, hj, hfinished]

end DecidesIn

lemma decidesIn_resolve {j : Job} (hj : c.jobs[k]? = some j) : (c.resolve k).DecidesIn k 2 := by
  refine ⟨{ j with resolved := true }, ?_, rfl, Job.turnsLeft_le _⟩
  show (c.jobs.modify k _)[k]? = _
  rw [List.getElem?_modify, hj]
  simp

/-- After whatever has happened, whoever asks for the payload of a job in the table is given the one
that it has at the end of the call.  It is none only if the job has ended without any. -/
theorem retrieve_answers (hfresh : c.Fresh) (hwakeups : c.wakeups = [])
    (hrun : Relation.ReflTransGen Happens c c') (hid : c'.lookup? id = some k)
    (head : Option Hash) :
    (c'.retrieve head id).1 = (c'.retrieve head id).2.best? k ∧
      ((c'.retrieve head id).1 = none → (c'.retrieve head id).2.isActive k = false) := by
  have hscheduled := scheduled_of_happens hrun (hfresh.scheduled hwakeups)
  obtain ⟨entry, hentry, rfl⟩ := exists_entry_of_lookup? hid
  obtain ⟨j, hj, -⟩ := (tracks_of_happens hrun hfresh.tracks).job id entry hentry
  simp only [retrieve, hid]
  exact (decidesIn_resolve hj).await (hscheduled.resolve entry.job) head

end Coordinator

end ChainHead
