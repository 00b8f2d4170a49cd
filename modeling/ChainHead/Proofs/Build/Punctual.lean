import ChainHead.Proofs.Build.Clock

/-!
# Every turn is on time

No wake-up is ever in the past (`Coordinator.Timely`).  Time goes on from wake-up to wake-up, so
that a job has its turn at the very time that it asked for, and this is true of whatever happens to
a coordinator (`Coordinator.timely_of_happens`).

With it all that happens through time is made of steps of which none passes over a wake-up
(`Coordinator.Beat`).  What callers do takes no time at all (`Coordinator.Call.instant`).  A run in
which the head stays where it is consists of these two (`Coordinator.HappensUnder`).
-/

namespace ChainHead

namespace Coordinator

variable {c c' c'' : Coordinator} {head : Option Hash} {limit : Nat}

/-- No wake-up was missed. -/
def Timely (c : Coordinator) : Prop := ∀ w ∈ c.wakeups, c.now ≤ w.time

lemma Rested.timely (h : c.Rested) : c.Timely := fun w hw => Nat.le_of_lt (h w hw)

/-- Wake-ups that are due are for the present. -/
lemma Timely.time_eq (h : c.Timely) {w : Wakeup} (hw : w ∈ c.wakeups) (hdue : w.time ≤ c.now) :
    w.time = c.now :=
  Nat.le_antisymm hdue (h w hw)

/-! ## Through time -/

/-- A part of what happens through time, in which no wake-up is passed over. -/
inductive Beat (head : Option Hash) (c : Coordinator) : Coordinator → Prop where
  /-- All jobs that are due have their turns. -/
  | runDue : Beat head c (c.runDue head)
  /-- The payload of a job is asked for under its id. -/
  | resolve {id : PayloadId} {k : Nat} (hid : c.lookup? id = some k) : Beat head c (c.resolve k)
  /-- Those who wait are told. -/
  | tell (fetches : List Fetch) : Beat head c { c with fetches }
  /-- The clock goes on up to the next wake-up at most. -/
  | wait {now : Nat} (hnow : c.now ≤ now) (hahead : ∀ w ∈ c.wakeups, now ≤ w.time) :
      Beat head c { c with now }

/-- What happens through time, with no wake-up passed over. -/
abbrev Beats (head : Option Hash) : Coordinator → Coordinator → Prop :=
  Relation.ReflTransGen (Beat head)

lemma Beat.timely (hbeat : Beat head c c') (h : c.Timely) : c'.Timely := by
  cases hbeat with
  | runDue => exact (c.rested_runDue head).timely
  | resolve _ => exact h
  | tell _ => exact h
  | wait _ hahead => exact hahead

lemma Beat.tick (hbeat : Beat head c c') : Tick head c c' := by
  cases hbeat with
  | runDue => exact .runDue
  | resolve hid => exact .resolve hid
  | tell fetches => exact .tell fetches
  | wait hnow _ => exact .wait hnow

lemma Beat.works (hbeat : Beat head c c') : Works head c c' := by
  cases hbeat with
  | runDue => exact (Moves.runDue c head).works
  | resolve _ => exact .resolve c _
  | tell _ => exact .of_eq rfl rfl rfl rfl rfl
  | wait _ _ => exact .of_eq rfl rfl rfl rfl rfl

namespace Beats

lemma timely (hbeats : Beats head c c') (h : c.Timely) : c'.Timely := by
  induction hbeats with
  | refl => exact h
  | tail _ hbeat ih => exact hbeat.timely ih

lemma settle (c : Coordinator) (head : Option Hash) : Beats head c (c.settle head) := by
  have hserved : Beats head c ((c.runDue head).serveAll (c.runDue head).fetches).2 :=
    serveAll_induction (fun _ _ _ hid h => h.tail (.resolve hid)) (.single .runDue) _
  exact hserved.tail (.tell _)

/-- Each round leaves all wake-ups a millisecond ahead at least, so the fuel lasts for the way from
any of them to the end. -/
lemma runFor {fuel : Nat} (h : c.Timely) (hlimit : c.now ≤ limit)
    (hfuel : ∀ w ∈ c.wakeups, limit ≤ w.time + fuel) :
    Beats head c (runFor head limit fuel c) := by
  induction fuel generalizing c with
  | zero => exact .single (.wait hlimit hfuel)
  | succ fuel ih =>
    cases hnext : c.nextTime? with
    | none =>
      have hnone := wakeups_of_nextTime?_eq_none hnext
      simp only [Coordinator.runFor, hnext]
      exact .single (.wait hlimit (by simp [hnone]))
    | some time =>
      simp only [Coordinator.runFor, hnext]
      split_ifs with hpast
      · exact .single (.wait hlimit fun w hw =>
          Nat.le_trans (Nat.le_of_lt hpast) (nextTime?_le hnext hw))
      · obtain ⟨w, hw, rfl⟩ := List.mem_map.1 (List.min?_mem hnext)
        have hnow : max c.now w.time = w.time := Nat.max_eq_right (h w hw)
        have hwoken : Beats head c { c with now := w.time } :=
          .single (.wait (h w hw) fun w' hw' => nextTime?_le hnext hw')
        have hrested := rested_settle { c with now := w.time } head
        rw [hnow]
        refine (hwoken.trans (settle _ head)).trans (ih hrested.timely ?_ fun w' hw' => ?_)
        · rw [now_settle]
          exact Nat.le_of_not_lt hpast
        · have hlater : w.time < w'.time := by simpa using hrested w' hw'
          have hfuel := hfuel w hw
          omega

lemma runUntil (h : c.Timely) (hlimit : c.now ≤ limit) (head : Option Hash) :
    Beats head c (c.runUntil head limit) := by
  refine runFor h hlimit fun w hw => ?_
  have htime := h w hw
  omega

lemma of_waits (h : Waits head c c') : Beats head c c' := by
  induction h with
  | refl => exact .refl
  | tail _ hwait ih =>
    cases hwait with
    | settle => exact ih.trans (settle _ head)
    | runUntil hrested hlimit => exact ih.trans (runUntil hrested.timely hlimit head)
    | resolve hid => exact ih.tail (.resolve hid)

end Beats

/-! ## At one instant -/

/-- The one coordinator comes of the other without a turn, and no time passes. -/
structure Instant (c c' : Coordinator) : Prop where
  now : c'.now = c.now
  attempts : c'.attempts = c.attempts
  wakeups : ∃ new, c'.wakeups = c.wakeups ++ new ∧ ∀ w ∈ new, w.time = c.now

namespace Instant

lemma of_eq (hnow : c'.now = c.now) (hattempts : c'.attempts = c.attempts)
    (hwakeups : c'.wakeups = c.wakeups) : Instant c c' :=
  ⟨hnow, hattempts, [], by rw [hwakeups, List.append_nil], by simp⟩

lemma timely (hinstant : Instant c c') (h : c.Timely) : c'.Timely := by
  obtain ⟨new, hwakeups, hnew⟩ := hinstant.wakeups
  intro w hw
  rw [hinstant.now]
  rw [hwakeups, List.mem_append] at hw
  obtain hw | hw := hw
  · exact h w hw
  · exact Nat.le_of_eq (hnew w hw).symm

lemma mem_wakeups (hinstant : Instant c c') {w : Wakeup} (hw : w ∈ c.wakeups) :
    w ∈ c'.wakeups := by
  obtain ⟨new, hwakeups, -⟩ := hinstant.wakeups
  rw [hwakeups]
  exact List.mem_append_left _ hw

lemma startAs (c : Coordinator) (id : PayloadId) (parent : Block) (a : PayloadAttributes) :
    Instant c (c.startAs id parent a).after := by
  obtain ⟨jobs, table, hroom, -⟩ := c.makeRoom_eq_with parent.hash
  unfold Coordinator.startAs
  dsimp only
  split_ifs
  · exact .of_eq rfl rfl rfl
  · rw [hroom]
    exact ⟨rfl, rfl, [⟨jobs.length, c.now⟩], rfl, by simp⟩

lemma start (c : Coordinator) (parent : Block) (a : PayloadAttributes) :
    Instant c (c.start parent a).after := by
  obtain ⟨hnow, hattempts, hwakeups⟩ :=
    startAs c (draw (c.makeRoom parent.hash).2.nextFree) parent a
  exact ⟨hnow, hattempts, hwakeups⟩

lemma startNowhere (c : Coordinator) (parent : Block) :
    Instant c (c.startNowhere parent).2.2 := by
  obtain ⟨jobs, table, hroom, -⟩ := c.makeRoom_eq_with parent.hash
  unfold Coordinator.startNowhere
  split_ifs
  · exact .of_eq rfl rfl rfl
  · simp only [hroom]
    exact .of_eq rfl rfl rfl

lemma cancel (c : Coordinator) (id : PayloadId) : Instant c (c.cancel id).2 := by
  obtain ⟨jobs, table, hcancel, -⟩ := c.cancel_eq_with id
  rw [hcancel]
  exact .of_eq rfl rfl rfl

end Instant

/-- What callers do at one instant. -/
inductive Call (c : Coordinator) : Coordinator → Prop where
  /-- A job is started under some free id. -/
  | startAs (id : PayloadId) (parent : Block) (a : PayloadAttributes)
      (hfree : (c.makeRoom parent.hash).2.table.entries.get? id = none) :
      Call c (c.startAs id parent a).after
  /-- A job is started under an id that the coordinator draws. -/
  | start (parent : Block) (a : PayloadAttributes) : Call c (c.start parent a).after
  /-- A job is to be started where none can run. -/
  | startNowhere (parent : Block) : Call c (c.startNowhere parent).2.2
  /-- A job is cancelled. -/
  | cancel (id : PayloadId) : Call c (c.cancel id).2
  /-- A request for a payload is left. -/
  | ask (id : PayloadId) : Call c (c.ask id).2
  /-- The journal is taken. -/
  | clearJournal : Call c c.clearJournal

namespace Call

lemma instant (hcall : Call c c') : Instant c c' := by
  cases hcall with
  | startAs id parent a _ => exact .startAs c id parent a
  | start parent a => exact .start c parent a
  | startNowhere parent => exact .startNowhere c parent
  | cancel id => exact .cancel c id
  | ask id => exact .of_eq rfl rfl rfl
  | clearJournal => exact .of_eq rfl rfl rfl

lemma marks (hcall : Call c c') (k : Nat) : Marks k c c' := by
  cases hcall with
  | startAs id parent a _ => exact .startAs c id parent a
  | start parent a => exact .start c parent a
  | startNowhere parent => exact .startNowhere c parent
  | cancel id => exact .cancel c id
  | ask id => exact .of_eq rfl rfl rfl
  | clearJournal => exact .of_eq rfl rfl rfl

lemma happens (hcall : Call c c') : Happens c c' := by
  cases hcall with
  | startAs id parent a hfree => exact .startAs id parent a hfree
  | start parent a => exact .step (.start parent a)
  | startNowhere parent => exact .step (.startNowhere parent)
  | cancel id => exact .step (.cancel id)
  | ask id => exact .step (.ask id)
  | clearJournal => exact .step .clearJournal

end Call

/-! ## Whatever happens -/

lemma Step.timely (hstep : Step c c') (h : c.Timely) : c'.Timely := by
  cases hstep with
  | start parent a => exact (Call.start parent a).instant.timely h
  | startNowhere parent => exact (Call.startNowhere parent).instant.timely h
  | cancel id => exact (Call.cancel id).instant.timely h
  | ask id => exact (Call.ask id).instant.timely h
  | clearJournal => exact Call.clearJournal.instant.timely h
  | retrieve head id => exact (Beats.of_waits (.retrieve c head id)).timely h
  | join head fetch => exact (Beats.of_waits (.join c head fetch)).timely h
  | settle head => exact (Beats.settle c head).timely h
  | runUntil head limit =>
    by_cases hlimit : c.now ≤ limit
    · exact (Beats.runUntil h hlimit head).timely h
    · rw [runUntil_of_le (Nat.le_of_not_le hlimit)]
      exact fun w hw => Nat.le_trans (Nat.le_of_not_le hlimit) (h w hw)

/-- Whatever happens, no wake-up is ever missed. -/
theorem timely_of_happens (hrun : Relation.ReflTransGen Happens c c') (h : c.Timely) :
    c'.Timely := by
  induction hrun with
  | refl => exact h
  | tail _ hhappens ih =>
    cases hhappens with
    | startAs id parent a hfree => exact (Call.startAs id parent a hfree).instant.timely ih
    | step hstep => exact hstep.timely ih

/-! ## The first turn -/

/-- When the first turn of a job is due, its deadline is as far ahead as if it were set only then: no
time has passed since the job was started. -/
theorem deadline_of_first_turn {fresh : Coordinator} (hfresh : fresh.Fresh)
    (hwakeups : fresh.wakeups = []) (hrun : Relation.ReflTransGen Happens fresh c) {wake : Wakeup}
    (hwake : wake ∈ c.wakeups) (hdue : wake.time ≤ c.now) {j : Job}
    (hj : c.jobs[wake.job]? = some j) (hnew : j.IsNew) :
    j.deadline = c.now + c.timing.deadline := by
  have htimely : fresh.Timely := by simp [Timely, hwakeups]
  have hscheduled := scheduled_of_happens hrun (hfresh.scheduled hwakeups)
  rw [hscheduled.deadline wake hwake j hj hnew,
    (timely_of_happens hrun htimely).time_eq hwake hdue]

/-! ## Under one head -/

/-- What may happen to a coordinator while the head of the chain stays where it is. -/
inductive HappensUnder (head : Option Hash) (c : Coordinator) : Coordinator → Prop where
  /-- Somebody calls. -/
  | call {c' : Coordinator} (hcall : Call c c') : HappensUnder head c c'
  /-- A payload is fetched. -/
  | retrieve (id : PayloadId) : HappensUnder head c (c.retrieve head id).2
  /-- The answer to a request is waited for. -/
  | join (fetch : Nat) : HappensUnder head c (c.join head fetch).2
  /-- What is due is done. -/
  | settle : HappensUnder head c (c.settle head)
  /-- Time goes on. -/
  | runUntil {limit : Nat} (hlimit : c.now ≤ limit) : HappensUnder head c (c.runUntil head limit)

/-- Callers take no time, and all else passes over no wake-up. -/
lemma HappensUnder.call_or_beats (hunder : HappensUnder head c c') (h : c.Timely) :
    Call c c' ∨ Beats head c c' := by
  cases hunder with
  | call hcall => exact .inl hcall
  | retrieve id => exact .inr (.of_waits (.retrieve c head id))
  | join fetch => exact .inr (.of_waits (.join c head fetch))
  | settle => exact .inr (.settle c head)
  | runUntil hlimit => exact .inr (.runUntil h hlimit head)

end Coordinator

end ChainHead
