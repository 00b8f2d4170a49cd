import ChainHead.Proofs.Build.Bookkeeping

/-!
# No turn is missed

A job that has not ended waits for one wake-up, and one that has ended for none
(`Coordinator.Scheduled`).  This holds after whatever happens to a coordinator
(`Coordinator.scheduled_of_happens`), so no job is ever forgotten, and none has two turns at once.
And a job that waits for its first turn has its deadline from the time of that turn.

A turn asks for the next one at a later time (`Job.Turn.Plans`).  So once everything is done that is
due, all wake-ups lie ahead (`Coordinator.Rested`), and from there the milliseconds up to a time are
enough fuel to get there (`Coordinator.Rested.runUntil`).

All that happens through time is made of four things, and the clock never goes back in it
(`Coordinator.Tick`).
-/

namespace ChainHead

/-! ## One turn -/

namespace Job

variable {j : Job} {timing : Timing} {now : Nat}

/-- The job has had no turn yet. -/
def IsNew (j : Job) : Prop := j.phase = .resting ∧ j.iteration = 0

/-- The turn asks for the next one at a later time, unless the job is at its end. -/
inductive Turn.Plans (now : Nat) (turn : Turn) : Prop where
  | ends (hfinished : turn.job.isFinished = true) (hwake : turn.wake = none)
  | goesOn {time : Nat} (hfinished : turn.job.isFinished = false) (hwake : turn.wake = some time)
      (hlater : now < time) (hbegun : ¬ turn.job.IsNew)

lemma Turn.Plans.not_isNew {turn : Turn} (h : turn.Plans now) : ¬ turn.job.IsNew := by
  cases h with
  | ends hfinished _ =>
    rintro ⟨hphase, -⟩
    simp [isFinished, hphase] at hfinished
  | goesOn _ _ _ hbegun => exact hbegun

lemma plans_quit (j : Job) (now : Nat) : j.quit.Plans now := by
  unfold quit
  split_ifs
  · exact .ends rfl rfl
  · exact .ends rfl rfl

lemma plans_rest (j : Job) (timing : Timing) (now : Nat) (notices : List Log.Notice) :
    (j.rest timing now notices).Plans now := by
  unfold rest
  dsimp only
  split_ifs with hdeadline
  · exact .ends rfl rfl
  · exact .goesOn rfl rfl (by omega) (by simp [IsNew])

lemma plans_answered (j : Job) (timing : Timing) (now : Nat) (kind : BuilderAnswer.Kind) :
    (j.answered timing now kind).Plans now := by
  cases kind with
  | success =>
    unfold answered
    dsimp only
    split
    · exact plans_rest _ _ _ _
    · exact .ends rfl rfl
  | crash => exact .ends rfl rfl
  | failure =>
    unfold answered
    dsimp only
    split_ifs
    · exact .ends rfl rfl
    · exact plans_rest _ _ _ _

lemma plans_ask (j : Job) (timing : Timing) (now : Nat) (answer : BuilderAnswer) :
    (j.ask timing now answer).Plans now := by
  unfold ask
  split_ifs with hdelay
  · exact plans_answered _ _ _ _
  · exact .goesOn rfl rfl (Nat.lt_add_of_pos_right (Nat.pos_of_ne_zero hdelay)) (by simp [IsNew])

end Job

namespace Coordinator

variable {c c' c'' : Coordinator} {head : Option Hash} {k limit : Nat} {j : Job}

lemma isActive_iff : c.isActive k = true ↔ ∃ j, c.jobs[k]? = some j ∧ j.isFinished = false := by
  unfold isActive
  cases c.jobs[k]? <;> simp

/-- A turn of a job that has not ended. -/
lemma turn_plans (hactive : c.isActive k = true) (head : Option Hash) :
    ∃ turn : Job.Turn, turn.Plans c.now ∧ (c.turn head k).jobs = c.jobs.set k turn.job ∧
      (c.turn head k).wakeups = c.wakeups ++ turn.wake.toList.map (Wakeup.mk k) := by
  have hends := c.turn_ends head k
  generalize c.turn head k = c' at hends
  cases hends with
  | idle hidle =>
    obtain ⟨j, hj, hworks⟩ := isActive_iff.1 hactive
    obtain hphase | hphase := hidle j hj
    · simp [Job.isFinished, hphase] at hworks
    · simp [Job.isFinished, hphase] at hworks
  | @attempt j _ _ _ =>
    obtain ⟨journal, gauge, heq⟩ :=
      (c.note j).conclude_eq_with k (j.ask c.timing c.now c.nextAnswer)
    exact ⟨_, j.plans_ask _ _ _, by rw [heq, note], by rw [heq, note]⟩
  | @quit j _ _ _ =>
    obtain ⟨journal, gauge, heq⟩ := c.conclude_eq_with k j.quit
    exact ⟨_, j.plans_quit _, by rw [heq], by rw [heq]⟩
  | @answer j kind _ _ =>
    obtain ⟨journal, gauge, heq⟩ := c.conclude_eq_with k (j.answered c.timing c.now kind)
    exact ⟨_, j.plans_answered _ _ _, by rw [heq], by rw [heq]⟩

lemma turn_of_not_active (hidle : c.isActive k = false) (head : Option Hash) :
    c.turn head k = c := by
  have hfinished {j : Job} (hj : c.jobs[k]? = some j) : j.isFinished = true := by
    simpa [isActive, hj] using hidle
  have hends := c.turn_ends head k
  generalize c.turn head k = c' at hends
  cases hends with
  | idle _ => rfl
  | attempt hj hphase _ => simpa [Job.isFinished, hphase] using hfinished hj
  | quit hj hphase _ => simpa [Job.isFinished, hphase] using hfinished hj
  | answer hj hphase => simpa [Job.isFinished, hphase] using hfinished hj

/-- A turn of one job leaves the others as they are. -/
lemma getElem?_jobs_turn {i : Nat} (hne : k ≠ i) (c : Coordinator) (head : Option Hash) :
    (c.turn head k).jobs[i]? = c.jobs[i]? := by
  cases hactive : c.isActive k with
  | false => rw [turn_of_not_active hactive]
  | true =>
    obtain ⟨turn, -, hjobs, -⟩ := turn_plans hactive head
    rw [hjobs, List.getElem?_set_ne hne]

@[simp] lemma now_turn (c : Coordinator) (head : Option Hash) (k : Nat) :
    (c.turn head k).now = c.now := by
  have hconclude (c : Coordinator) (turn : Job.Turn) : (c.conclude k turn).now = c.now := by
    obtain ⟨journal, gauge, heq⟩ := c.conclude_eq_with k turn
    rw [heq]
  have hends := c.turn_ends head k
  generalize c.turn head k = c' at hends
  cases hends with
  | idle _ => rfl
  | @attempt j _ _ _ => exact hconclude (c.note j) _
  | quit _ _ _ => exact hconclude c _
  | answer _ _ => exact hconclude c _

/-- A turn takes no wake-up away. -/
lemma mem_wakeups_turn {w : Wakeup} (hw : w ∈ c.wakeups) (head : Option Hash) (k : Nat) :
    w ∈ (c.turn head k).wakeups := by
  cases hactive : c.isActive k with
  | false => exact (turn_of_not_active hactive head).symm ▸ hw
  | true =>
    obtain ⟨turn, -, -, hwakeups⟩ := turn_plans hactive head
    rw [hwakeups]
    exact List.mem_append_left _ hw

/-! ## One instant -/

/-- Nothing is due. -/
def Rested (c : Coordinator) : Prop := ∀ w ∈ c.wakeups, c.now < w.time

@[simp] lemma now_foldl_turn (c : Coordinator) (head : Option Hash) (ks : List Nat) :
    (ks.foldl (fun c k => c.turn head k) c).now = c.now :=
  ks.foldlRecOn (motive := fun c' : Coordinator => c'.now = c.now) _ rfl
    fun _ hc _ _ => (now_turn _ _ _).trans hc

lemma Rested.turn (h : c.Rested) (head : Option Hash) (k : Nat) : (c.turn head k).Rested := by
  intro w hw
  rw [now_turn]
  cases hactive : c.isActive k with
  | false =>
    rw [turn_of_not_active hactive] at hw
    exact h w hw
  | true =>
    obtain ⟨turn, hplans, -, hwakeups⟩ := turn_plans hactive head
    rw [hwakeups, List.mem_append] at hw
    obtain hw | hw := hw
    · exact h w hw
    cases hplans with
    | ends _ hwake => simp [hwake] at hw
    | goesOn _ hwake hlater _ =>
      simp only [hwake, Option.toList_some, List.map_singleton, List.mem_singleton] at hw
      exact hw ▸ hlater

lemma rested_runDue (c : Coordinator) (head : Option Hash) : (c.runDue head).Rested := by
  have hahead : { c with wakeups := c.wakeups.filter fun w => c.now < w.time }.Rested :=
    fun w hw => by simpa using (List.mem_filter.1 hw).2
  exact c.due.foldlRecOn _ hahead fun _ hc k _ => hc.turn head k

/-- Requests do no more than to tell jobs that their payloads were asked for. -/
lemma serveAll_induction {P : Coordinator → Prop}
    (hresolve : ∀ c id k, c.lookup? id = some k → P c → P (c.resolve k)) (h : P c)
    (fetches : List Fetch) : P (c.serveAll fetches).2 := by
  have hserve {c : Coordinator} (h : P c) (f : Fetch) : P (c.serve f).2 := by
    obtain hsame | ⟨id, k, hid, hresolved⟩ := c.serve_cases f
    · exact hsame.symm ▸ h
    · exact hresolved.symm ▸ hresolve c id k hid h
  induction fetches generalizing c with
  | nil => exact h
  | cons f rest ih =>
    rw [serveAll]
    exact ih (hserve h f)

lemma rested_settle (c : Coordinator) (head : Option Hash) : (c.settle head).Rested :=
  serveAll_induction (P := Rested) (fun _ _ _ _ h => h) (c.rested_runDue head) _

@[simp] lemma now_settle (c : Coordinator) (head : Option Hash) : (c.settle head).now = c.now := by
  have hdue : (c.runDue head).now = c.now := now_foldl_turn _ head _
  exact serveAll_induction (P := fun c' => c'.now = c.now) (fun _ _ _ _ h => h) hdue _

/-! ## From wake-up to wake-up -/

lemma nextTime?_le {time : Nat} (hnext : c.nextTime? = some time) {w : Wakeup}
    (hw : w ∈ c.wakeups) : time ≤ w.time :=
  (List.min?_eq_some_iff.1 hnext).2 _ (List.mem_map_of_mem hw)

lemma wakeups_of_nextTime?_eq_none (hnext : c.nextTime? = none) : c.wakeups = [] :=
  List.map_eq_nil_iff.1 (List.min?_eq_none_iff.1 hnext)

@[simp] lemma now_runFor (head : Option Hash) (limit fuel : Nat) (c : Coordinator) :
    (runFor head limit fuel c).now = limit := by
  induction fuel generalizing c with
  | zero => rfl
  | succ fuel ih =>
    unfold runFor
    split
    · rfl
    · split_ifs
      · rfl
      · exact ih _

/-- The clock shows the time that was waited for. -/
@[simp] lemma now_runUntil (c : Coordinator) (head : Option Hash) (limit : Nat) :
    (c.runUntil head limit).now = limit :=
  now_runFor head limit _ c

/-- Where the time is past already, nothing has a turn. -/
lemma runUntil_of_le (hlimit : limit ≤ c.now) : c.runUntil head limit = { c with now := limit } := by
  rw [Coordinator.runUntil, Nat.sub_eq_zero_of_le hlimit, Coordinator.runFor]

lemma Rested.runFor (h : c.Rested) {fuel : Nat} (hfuel : limit ≤ c.now + fuel) :
    (runFor head limit fuel c).Rested := by
  induction fuel generalizing c with
  | zero => exact fun w hw => Nat.lt_of_le_of_lt hfuel (h w hw)
  | succ fuel ih =>
    cases hnext : c.nextTime? with
    | none =>
      simp only [Coordinator.runFor, hnext]
      intro w hw
      have hw : w ∈ c.wakeups := hw
      simp [wakeups_of_nextTime?_eq_none hnext] at hw
    | some time =>
      simp only [Coordinator.runFor, hnext]
      split_ifs with hlimit
      · exact fun w hw => Nat.lt_of_lt_of_le hlimit (nextTime?_le hnext hw)
      · -- the clock goes on by a millisecond at least
        obtain ⟨w, hw, rfl⟩ := List.mem_map.1 (List.min?_mem hnext)
        have hlater := h w hw
        refine ih (rested_settle _ head) ?_
        rw [now_settle]
        show limit ≤ max c.now w.time + fuel
        omega

/-- Whoever waits until a time misses no turn up to it. -/
theorem Rested.runUntil (h : c.Rested) (head : Option Hash) (limit : Nat) :
    (c.runUntil head limit).Rested :=
  h.runFor (by omega)

lemma Rested.runTurnOf (h : c.Rested) (head : Option Hash) (k : Nat) :
    (c.runTurnOf head k).Rested := by
  unfold Coordinator.runTurnOf
  split
  · exact h.runUntil head _
  · exact h

/-! ## Waiting for a payload -/

/-- A part of what waiting for a payload is made of. -/
inductive Wait (head : Option Hash) (c : Coordinator) : Coordinator → Prop where
  /-- What is due is done. -/
  | settle : Wait head c (c.settle head)
  /-- Where nothing is due, time goes on. -/
  | runUntil {limit : Nat} (hrested : c.Rested) (hlimit : c.now ≤ limit) :
      Wait head c (c.runUntil head limit)
  /-- The payload of a job is asked for under its id. -/
  | resolve {id : PayloadId} {k : Nat} (hid : c.lookup? id = some k) : Wait head c (c.resolve k)

/-- What happens while a payload is waited for. -/
abbrev Waits (head : Option Hash) : Coordinator → Coordinator → Prop :=
  Relation.ReflTransGen (Wait head)

namespace Waits

lemma runTurnOf (h : c.Rested) (head : Option Hash) (k : Nat) :
    Waits head c (c.runTurnOf head k) := by
  unfold Coordinator.runTurnOf
  split
  next w hw =>
    exact .single (.runUntil h (Nat.le_of_lt (h w (List.mem_of_find?_eq_some hw))))
  next => exact .refl

lemma await (c : Coordinator) (head : Option Hash) (k : Nat) :
    Waits head c (c.await head k).2 := by
  -- each of the two rounds is skipped once there is a payload
  have hround {c : Coordinator} (h : c.Rested) :
      Waits head c (if (c.best? k).isSome then c else c.runTurnOf head k) ∧
        (if (c.best? k).isSome then c else c.runTurnOf head k).Rested := by
    split_ifs
    · exact ⟨.refl, h⟩
    · exact ⟨runTurnOf h head k, h.runTurnOf head k⟩
  unfold Coordinator.await
  split_ifs
  · exact .refl
  · obtain ⟨hfirst, hrested⟩ := hround (c.rested_settle head)
    exact .head .settle (hfirst.trans (hround hrested).1)

lemma retrieve (c : Coordinator) (head : Option Hash) (id : PayloadId) :
    Waits head c (c.retrieve head id).2 := by
  unfold Coordinator.retrieve
  split
  next => exact .refl
  next k hid => exact .head (.resolve hid) (await _ head k)

lemma join (c : Coordinator) (head : Option Hash) (fetch : Nat) :
    Waits head c (c.join head fetch).2 := by
  unfold Coordinator.join
  dsimp only
  split
  · exact .single .settle
  · exact .head .settle (await _ head _)
  · exact .single .settle

end Waits

/-! ## What all passing of time is made of -/

/-- A part of what happens through time, under a head of the chain. -/
inductive Tick (head : Option Hash) (c : Coordinator) : Coordinator → Prop where
  /-- All jobs that are due have their turns. -/
  | runDue : Tick head c (c.runDue head)
  /-- The payload of a job is asked for under its id. -/
  | resolve {id : PayloadId} {k : Nat} (hid : c.lookup? id = some k) : Tick head c (c.resolve k)
  /-- Those who wait are told. -/
  | tell (fetches : List Fetch) : Tick head c { c with fetches }
  /-- The clock goes on. -/
  | wait {now : Nat} (hnow : c.now ≤ now) : Tick head c { c with now }

/-- What happens through time. -/
abbrev Ticks (head : Option Hash) : Coordinator → Coordinator → Prop :=
  Relation.ReflTransGen (Tick head)

namespace Ticks

lemma settle (c : Coordinator) (head : Option Hash) : Ticks head c (c.settle head) := by
  have hserved : Ticks head c ((c.runDue head).serveAll (c.runDue head).fetches).2 :=
    serveAll_induction (fun _ _ _ hid h => h.tail (.resolve hid)) (.single .runDue) _
  exact hserved.tail (.tell _)

lemma runFor {fuel : Nat} (hlimit : c.now ≤ limit) : Ticks head c (runFor head limit fuel c) := by
  induction fuel generalizing c with
  | zero => exact .single (.wait hlimit)
  | succ fuel ih =>
    cases hnext : c.nextTime? with
    | none =>
      simp only [Coordinator.runFor, hnext]
      exact .single (.wait hlimit)
    | some time =>
      simp only [Coordinator.runFor, hnext]
      split_ifs with htime
      · exact .single (.wait hlimit)
      · have hwoken : Ticks head c { c with now := max c.now time } :=
          .single (.wait (Nat.le_max_left _ _))
        refine (hwoken.trans (settle _ head)).trans (ih ?_)
        rw [now_settle]
        show max c.now time ≤ limit
        omega

lemma runUntil (hlimit : c.now ≤ limit) (head : Option Hash) :
    Ticks head c (c.runUntil head limit) :=
  runFor hlimit

lemma of_waits (h : Waits head c c') : Ticks head c c' := by
  induction h with
  | refl => exact .refl
  | tail _ hwait ih =>
    cases hwait with
    | settle => exact ih.trans (settle _ head)
    | runUntil _ hlimit => exact ih.trans (runUntil hlimit head)
    | resolve hid => exact ih.tail (.resolve hid)

lemma runTurnOf (h : c.Rested) (head : Option Hash) (k : Nat) :
    Ticks head c (c.runTurnOf head k) :=
  .of_waits (.runTurnOf h head k)

lemma retrieve (c : Coordinator) (head : Option Hash) (id : PayloadId) :
    Ticks head c (c.retrieve head id).2 :=
  .of_waits (.retrieve c head id)

lemma join (c : Coordinator) (head : Option Hash) (fetch : Nat) :
    Ticks head c (c.join head fetch).2 :=
  .of_waits (.join c head fetch)

end Ticks

/-! ## Who waits for which turn -/

/-- The jobs that wait in a queue of wake-ups are those that have not ended, each of them once.  One
that has had no turn yet has the deadline that it would set at the time of its wake-up. -/
structure Queued (c : Coordinator) (queue : List Wakeup) : Prop where
  nodup : (queue.map Wakeup.job).Nodup
  mem_iff : ∀ k, k ∈ queue.map Wakeup.job ↔ c.isActive k = true
  deadline : ∀ wake ∈ queue, ∀ j, c.jobs[wake.job]? = some j → j.IsNew →
    j.deadline = wake.time + c.timing.deadline

/-- The wake-ups that are due come before the others. -/
lemma perm_wakeups (c : Coordinator) : c.wakeups.Perm
    (c.wakeups.filter (fun w => w.time ≤ c.now) ++ c.wakeups.filter fun w => c.now < w.time) := by
  have hahead : (c.wakeups.filter fun w => c.now < w.time) =
      c.wakeups.filter fun w => ! decide (w.time ≤ c.now) :=
    List.filter_congr fun w _ => by rw [← decide_not, decide_eq_decide, Nat.not_le]
  rw [hahead]
  exact (List.filter_append_perm _ _).symm

/-- Every job that has not ended has a turn ahead. -/
abbrev Scheduled (c : Coordinator) : Prop := c.Queued c.wakeups

lemma isActive_modifyJob (c : Coordinator) (k : Nat) (f : Job → Job)
    (hf : ∀ j, (f j).phase = j.phase) (i : Nat) : (c.modifyJob k f).isActive i = c.isActive i := by
  have hfinished (j : Job) : (f j).isFinished = j.isFinished := by
    simp only [Job.isFinished, hf]
  unfold isActive modifyJob
  dsimp only
  rw [List.getElem?_modify]
  by_cases hk : k = i
  · cases hj : c.jobs[i]? <;> simp [hk, hfinished]
  · cases hj : c.jobs[i]? <;> simp [hk]

/-- A new job leaves the others as they are. -/
lemma isActive_place_of_ne (hk : k ≠ c.jobs.length) {id : PayloadId} {parent : Block}
    {a : PayloadAttributes} : (c.place id parent a).isActive k = c.isActive k := by
  have hsame : (c.place id parent a).jobs[k]? = c.jobs[k]? := by
    show (c.jobs ++ [_])[k]? = _
    rw [List.getElem?_append]
    split_ifs with hlt
    · rfl
    · rw [List.getElem?_eq_none (by simp; omega), List.getElem?_eq_none (by omega)]
  simp only [isActive, hsame]

namespace Queued

variable {queue queue' : List Wakeup} {wake : Wakeup}

lemma of_perm (h : c.Queued queue) (hperm : queue.Perm queue') : c.Queued queue' where
  nodup := ((hperm.map _).nodup_iff).1 h.nodup
  mem_iff k := by rw [← (hperm.map _).mem_iff, h.mem_iff]
  deadline wake hwake := h.deadline wake (hperm.mem_iff.2 hwake)

lemma lt_length (h : c.Queued queue) (hwake : wake ∈ queue) : wake.job < c.jobs.length := by
  obtain ⟨j, hj, -⟩ := isActive_iff.1 ((h.mem_iff _).1 (List.mem_map_of_mem hwake))
  exact (List.getElem?_eq_some_iff.1 hj).1

/-- Whatever else the coordinator holds is of no account. -/
lemma of_eq (h : c.Queued queue) (htiming : c'.timing = c.timing) (hjobs : c'.jobs = c.jobs) :
    c'.Queued queue where
  nodup := h.nodup
  mem_iff k := by rw [h.mem_iff, isActive, isActive, hjobs]
  deadline wake hwake := by
    rw [htiming, hjobs]
    exact h.deadline wake hwake

/-- Flags do not matter. -/
lemma modifyJob (h : c.Queued queue) (k : Nat) {f : Job → Job}
    (hf : ∀ j, ∃ cancelled resolved, f j = { j with cancelled, resolved }) :
    (c.modifyJob k f).Queued queue where
  nodup := h.nodup
  mem_iff i := by
    rw [h.mem_iff, c.isActive_modifyJob k f]
    intro j
    obtain ⟨cancelled, resolved, hj⟩ := hf j
    rw [hj]
  deadline wake hwake j hj hnew := by
    have hj : (c.jobs.modify k f)[wake.job]? = some j := hj
    rw [List.getElem?_modify, Option.map_eq_map, Option.map_eq_some_iff] at hj
    obtain ⟨j₀, hj₀, rfl⟩ := hj
    have hdeadline := h.deadline wake hwake j₀ hj₀
    split_ifs at hnew ⊢
    · obtain ⟨cancelled, resolved, hj⟩ := hf j₀
      rw [hj] at hnew ⊢
      exact hdeadline hnew
    · exact hdeadline hnew

/-- A turn gives no job a new deadline, and the job that has it is not new any more. -/
lemma deadline_turn {due : List Wakeup} (h : c.Queued (wake :: (due ++ c.wakeups)))
    (head : Option Hash) {next : Wakeup} (hnext : next ∈ due ++ (c.turn head wake.job).wakeups)
    (hj : (c.turn head wake.job).jobs[next.job]? = some j) (hnew : j.IsNew) :
    j.deadline = next.time + (c.turn head wake.job).timing.deadline := by
  have hactive := (h.mem_iff wake.job).1 List.mem_cons_self
  obtain ⟨turn, hplans, hjobs, hwakeups⟩ := turn_plans hactive head
  by_cases hi : wake.job = next.job
  · rw [hjobs, ← hi, List.getElem?_set_self (h.lt_length List.mem_cons_self),
      Option.some.injEq] at hj
    exact absurd (hj ▸ hnew) hplans.not_isNew
  · rw [getElem?_jobs_turn hi] at hj
    rw [(Works.turn c head wake.job).timing]
    refine h.deadline next ?_ j hj hnew
    rw [hwakeups, ← List.append_assoc, List.mem_append] at hnext
    obtain hold | hplanned := hnext
    · exact List.mem_cons_of_mem _ hold
    · obtain ⟨time, -, rfl⟩ := List.mem_map.1 hplanned
      exact absurd rfl hi

/-- The job that has its turn leaves the queue, and stands in it again unless it has ended. -/
lemma turn {due : List Wakeup} (h : c.Queued (wake :: (due ++ c.wakeups))) (head : Option Hash) :
    (c.turn head wake.job).Queued (due ++ (c.turn head wake.job).wakeups) := by
  have hactive := (h.mem_iff wake.job).1 List.mem_cons_self
  obtain ⟨turn, hplans, hjobs, hwakeups⟩ := turn_plans hactive head
  have hlt := h.lt_length List.mem_cons_self
  have hself : (c.turn head wake.job).isActive wake.job = ! turn.job.isFinished := by
    rw [isActive, hjobs, List.getElem?_set_self hlt]
  have hother {i : Nat} (hi : wake.job ≠ i) :
      (c.turn head wake.job).isActive i = c.isActive i := by
    rw [isActive, getElem?_jobs_turn hi, isActive]
  have hdeadline : ∀ next ∈ due ++ (c.turn head wake.job).wakeups, ∀ j,
      (c.turn head wake.job).jobs[next.job]? = some j → j.IsNew →
        j.deadline = next.time + (c.turn head wake.job).timing.deadline :=
    fun _ hnext _ hj hnew => h.deadline_turn head hnext hj hnew
  have hnodup := h.nodup
  rw [List.map_cons] at hnodup
  obtain ⟨hfresh, hrest⟩ := List.nodup_cons.1 hnodup
  cases hplans with
  | ends hfinished hwake =>
    have hsame : (c.turn head wake.job).wakeups = c.wakeups := by
      rw [hwakeups, hwake, Option.toList_none, List.map_nil, List.append_nil]
    refine ⟨by rwa [hsame], fun i => ?_, hdeadline⟩
    rw [hsame]
    by_cases hi : wake.job = i
    · subst hi
      rw [hself, hfinished]
      exact iff_of_false hfresh Bool.false_ne_true
    · rw [hother hi, ← h.mem_iff, List.map_cons, List.mem_cons, or_iff_right (Ne.symm hi)]
  | @goesOn time hfinished hwake _ _ =>
    have hjoins : (due ++ (c.turn head wake.job).wakeups).map Wakeup.job =
        (due ++ c.wakeups).map Wakeup.job ++ [wake.job] := by
      rw [hwakeups, hwake, ← List.append_assoc, List.map_append]
      rfl
    have hperm := (hjoins ▸ List.perm_append_singleton _ _).symm
    refine ⟨hperm.nodup_iff.1 hnodup, fun i => ?_, hdeadline⟩
    rw [← hperm.mem_iff]
    by_cases hi : wake.job = i
    · subst hi
      simp [hself, hfinished]
    · rw [hother hi, ← h.mem_iff, List.map_cons]

lemma foldl_turn (due : List Wakeup) (h : c.Queued (due ++ c.wakeups)) (head : Option Hash) :
    ((due.map Wakeup.job).foldl (fun c k => c.turn head k) c).Scheduled := by
  induction due generalizing c with
  | nil => exact h
  | cons wake due ih => exact ih (h.turn head)

end Queued

namespace Scheduled

lemma runDue (h : c.Scheduled) (head : Option Hash) : (c.runDue head).Scheduled :=
  Queued.foldl_turn (c := { c with wakeups := c.wakeups.filter fun w => c.now < w.time }) _
    ((h.of_perm c.perm_wakeups).of_eq rfl rfl) head

lemma resolve (h : c.Scheduled) (k : Nat) : (c.resolve k).Scheduled :=
  h.modifyJob k fun j => ⟨j.cancelled, true, rfl⟩

theorem tick (h : c.Scheduled) (htick : Tick head c c') : c'.Scheduled := by
  cases htick with
  | runDue => exact h.runDue head
  | resolve _ => exact h.resolve _
  | tell fetches => exact h.of_eq rfl rfl
  | wait _ => exact h.of_eq rfl rfl

theorem ticks (h : c.Scheduled) (hticks : Ticks head c c') : c'.Scheduled := by
  induction hticks with
  | refl => exact h
  | tail _ htick ih => exact ih.tick htick

/-! ### Calls -/

lemma remove (h : c.Scheduled) (id : PayloadId) : (c.remove id).Scheduled := by
  unfold Coordinator.remove
  split
  next => exact h
  next entry _ =>
    have hmarked := Queued.modifyJob h entry.job (f := fun j => { j with cancelled := true })
      fun j => ⟨true, j.resolved, rfl⟩
    exact hmarked.of_eq rfl rfl

lemma makeRoom (h : c.Scheduled) (parent : Hash) : (c.makeRoom parent).2.Scheduled := by
  have hfold {c : Coordinator} (h : c.Scheduled) (ids : List PayloadId) :
      (ids.foldl Coordinator.remove c).Scheduled :=
    ids.foldlRecOn _ h fun _ hc id _ => hc.remove id
  exact hfold (hfold h _) _

lemma place (h : c.Scheduled) (id : PayloadId) (parent : Block) (a : PayloadAttributes) :
    (c.place id parent a).Scheduled := by
  have hnew : (c.place id parent a).isActive c.jobs.length = true :=
    isActive_iff.2 ⟨_, List.getElem?_concat_length, rfl⟩
  have hfree : c.jobs.length ∉ c.wakeups.map Wakeup.job := by
    intro hmem
    obtain ⟨wake, hwake, hjob⟩ := List.mem_map.1 hmem
    exact Nat.ne_of_lt (h.lt_length hwake) hjob
  have hwakeups : (c.place id parent a).wakeups.map Wakeup.job =
      c.wakeups.map Wakeup.job ++ [c.jobs.length] := List.map_append
  refine ⟨?_, fun k => ?_, fun wake hwake j hj hnew => ?_⟩
  · rw [hwakeups, List.nodup_append]
    exact ⟨h.nodup, List.nodup_singleton _, by
      rintro k hk _ hlast rfl
      exact hfree (List.mem_singleton.1 hlast ▸ hk)⟩
  · rw [hwakeups, List.mem_append, List.mem_singleton, h.mem_iff]
    by_cases hk : k = c.jobs.length
    · simp [hk, hnew]
    · rw [isActive_place_of_ne hk, or_iff_left hk]
  · have hj : (c.jobs ++ [_])[wake.job]? = some j := hj
    obtain hold | hfirst := List.mem_append.1 hwake
    · rw [List.getElem?_append_left (h.lt_length hold)] at hj
      exact h.deadline wake hold j hj hnew
    · -- the new job waits for its first turn from now on
      obtain rfl := List.mem_singleton.1 hfirst
      rw [List.getElem?_concat_length] at hj
      cases hj
      rfl

lemma startAs (h : c.Scheduled) (id : PayloadId) (parent : Block) (a : PayloadAttributes) :
    (c.startAs id parent a).after.Scheduled := by
  unfold Coordinator.startAs
  dsimp only
  split_ifs
  · exact h
  · exact (h.makeRoom parent.hash).place id parent a

end Scheduled

lemma Step.scheduled (hstep : Step c c') (h : c.Scheduled) : c'.Scheduled := by
  cases hstep with
  | start b a => exact (h.startAs _ b a).of_eq rfl rfl
  | startNowhere b =>
    unfold Coordinator.startNowhere
    split_ifs
    · exact h
    · exact (h.makeRoom b.hash).of_eq rfl rfl
  | cancel id =>
    unfold Coordinator.cancel
    split
    · exact h.remove id
    · exact h
  | retrieve head id => exact h.ticks (Ticks.retrieve c head id)
  | ask id => exact h.of_eq rfl rfl
  | join head fetch => exact h.ticks (Ticks.join c head fetch)
  | settle head => exact h.ticks (Ticks.settle c head)
  | runUntil head limit =>
    by_cases hlimit : c.now ≤ limit
    · exact h.ticks (Ticks.runUntil hlimit head)
    · rw [runUntil_of_le (Nat.le_of_not_le hlimit)]
      exact h.of_eq rfl rfl
  | clearJournal => exact h.of_eq rfl rfl

lemma Fresh.scheduled (h : c.Fresh) (hwakeups : c.wakeups = []) : c.Scheduled := by
  refine ⟨by simp [hwakeups], fun k => ?_, by simp [hwakeups]⟩
  simp [hwakeups, isActive, h.1]

/-- Whatever happens, every job that has not ended waits for one wake-up, and nobody else does. -/
theorem scheduled_of_happens (hrun : Relation.ReflTransGen Happens c c') (h : c.Scheduled) :
    c'.Scheduled := by
  induction hrun with
  | refl => exact h
  | tail _ hhappens ih =>
    cases hhappens with
    | startAs id parent a _ => exact ih.startAs id parent a
    | step hstep => exact hstep.scheduled ih

end Coordinator

end ChainHead
