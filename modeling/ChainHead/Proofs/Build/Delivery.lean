import ChainHead.Proofs.Build.Bookkeeping

/-!
# A job delivers what was asked for

A job that is started rests, is in the table and has its first turn at once.  As long as nobody
takes it off the table and its block is the head, no exit of the job comes before its first payload
(`Job.Promises.step`), so the first turn publishes one.  Whoever asks for the payload either finds
it or lets the first turn happen (`Coordinator.Holds.retrieve`).

The builder here is the one that always succeeds, and the timing of the jobs does not matter: a
deadline of zero is looked at only after the first attempt.
-/

namespace ChainHead

variable {parent : Block} {a : PayloadAttributes} {id : PayloadId}

/-- The payload is the block without transactions that the attributes ask for on the parent. -/
structure BuiltPayload.Fulfils (p : BuiltPayload) (parent : Block) (a : PayloadAttributes) :
    Prop where
  parentHash : p.parentHash = parent.hash
  blockNumber : p.blockNumber.toNat = parent.number.toNat + 1
  timestamp : p.timestamp = a.timestamp
  feeRecipient : p.feeRecipient = a.suggestedFeeRecipient
  prevRandao : p.prevRandao = a.prevRandao
  withdrawals : p.withdrawals = a.withdrawals
  parentBeaconBlockRoot : p.parentBeaconBlockRoot = a.parentBeaconBlockRoot
  transactions : p.transactions = []
  blockValue : p.blockValue = 0

lemma BuildOrder.fulfils_of_emptyBlock {order : BuildOrder} {p : BuiltPayload}
    (h : order.emptyBlock = .ok p) : p.Fulfils order.parent order.attributes := by
  obtain ⟨number, hnumber, h⟩ := bind_eq_ok_iff.1 h
  cases h
  exact ⟨rfl, (successor_eq_ok_iff.1 hnumber).symm, rfl, rfl, rfl, rfl, rfl, rfl, rfl⟩

/-! ## One job -/

namespace Job

variable {timing : Timing} {j j' : Job}

/-- The job was not cancelled, what it has published is what was asked for, and before that it
rests. -/
structure Promises (parent : Block) (a : PayloadAttributes) (j : Job) : Prop where
  parent_eq : j.parent = parent
  attributes_eq : j.attributes = a
  not_cancelled : j.cancelled = false
  fulfils : ∀ p, j.best = some p → p.Fulfils parent a
  resting : j.best = none → j.phase = .resting

/-- Without a payload it goes on while its parent is the head, asked for or not. -/
lemma Promises.goesOn (h : j.Promises parent a) (hbest : j.best = none) :
    j.goesOn (some parent.hash) = true := by
  simp [Job.goesOn, h.not_cancelled, hbest, h.parent_eq]

/-- An attempt that succeeds publishes. -/
lemma exists_best_answered (hroom : j.parent.HasRoom) (timing : Timing) (now : Nat) :
    ∃ p phase, j.order.emptyBlock = .ok p ∧ (j.answered timing now .success).job =
      { j with phase, iteration := j.iteration + 1, best := some p } := by
  obtain ⟨p, hp⟩ := j.order.exists_emptyBlock_iff.2 hroom
  obtain ⟨phase, hrest⟩ := (j.publish p).rest_job timing now []
  refine ⟨p, phase, hp, ?_⟩
  simp only [answered, hp]
  exact hrest

/-- A builder that always succeeds leaves the job with a payload. -/
lemma Promises.attempt (h : j.Promises parent a) (hroom : parent.HasRoom) (timing : Timing)
    (now : Nat) : (j.ask timing now .succeed).job.Promises parent a ∧
      (j.ask timing now .succeed).job.best.isSome = true := by
  obtain ⟨p, phase, hp, hjob⟩ := exists_best_answered (h.parent_eq.symm ▸ hroom) timing now
  have hfulfils := BuildOrder.fulfils_of_emptyBlock hp
  rw [order, h.parent_eq, h.attributes_eq] at hfulfils
  have hask : j.ask timing now .succeed = j.answered timing now .success := rfl
  rw [hask, hjob]
  refine ⟨⟨h.parent_eq, h.attributes_eq, h.not_cancelled, ?_, nofun⟩, rfl⟩
  rintro _ ⟨⟩
  exact hfulfils

/-- Every step of the job keeps the promise, while its parent is the head. -/
lemma Promises.step (h : j.Promises parent a) (hroom : parent.HasRoom)
    (hstep : j.Step timing [] (some parent.hash) j') : j'.Promises parent a := by
  cases hstep with
  | attempt now _ _ hanswer =>
    obtain rfl | hmem := hanswer
    · exact (h.attempt hroom timing now).1
    · cases hmem
  | quit _ hstays =>
    -- it ends only with a payload
    have hbest : j.best ≠ none := by
      intro hbest
      cases hstays.symm.trans (h.goesOn hbest)
    rw [quit_job]
    exact ⟨h.parent_eq, h.attributes_eq, h.not_cancelled, h.fulfils, fun hnone => absurd hnone hbest⟩
  | @answer kind now hphase =>
    -- an answer arrives only where a payload was published before
    have hbest : j.best ≠ none := by
      intro hbest
      cases hphase.symm.trans (h.resting hbest)
    obtain ⟨phase, iteration, best, hjob, rfl | ⟨p, hp, rfl⟩⟩ := j.answered_job timing now kind
    · rw [hjob]
      exact ⟨h.parent_eq, h.attributes_eq, h.not_cancelled, h.fulfils,
        fun hnone => absurd hnone hbest⟩
    · have hfulfils := BuildOrder.fulfils_of_emptyBlock hp
      rw [order, h.parent_eq, h.attributes_eq] at hfulfils
      rw [hjob]
      refine ⟨h.parent_eq, h.attributes_eq, h.not_cancelled, ?_, nofun⟩
      rintro _ ⟨⟩
      exact hfulfils
  | resolve => exact ⟨h.parent_eq, h.attributes_eq, h.not_cancelled, h.fulfils, h.resting⟩

lemma Promises.evolves (h : j.Promises parent a) (hroom : parent.HasRoom)
    (hevolves : j.Evolves timing [] (some parent.hash) j') : j'.Promises parent a := by
  induction hevolves with
  | refl => exact h
  | tail _ hstep ih => exact ih.step hroom hstep

end Job

/-! ## Among other jobs -/

namespace Coordinator

variable {c c' : Coordinator} {head : Option Hash} {number : Nat}

/-- The builder always succeeds, and the job with this number is in the table and promises. -/
structure Holds (number : Nat) (id : PayloadId) (parent : Block) (a : PayloadAttributes)
    (c : Coordinator) : Prop where
  script : c.script = []
  lookup : c.lookup? id = some number
  job : ∃ j, c.jobs[number]? = some j ∧ j.Promises parent a

/-- The job has published, or its first turn is due. -/
def Ready (number : Nat) (c : Coordinator) : Prop :=
  (c.best? number).isSome = true ∨ ∃ w ∈ c.wakeups, w.job = number ∧ w.time ≤ c.now

lemma Works.lookup?_eq (h : Works head c c') (id : PayloadId) : c'.lookup? id = c.lookup? id := by
  simp only [lookup?, h.table, h.poisoned]

lemma Works.isSome_best? (h : Works head c c') (hbest : (c.best? number).isSome = true) :
    (c'.best? number).isSome = true := by
  unfold best? at hbest ⊢
  cases hj : c.jobs[number]? with
  | none => simp [hj] at hbest
  | some j =>
    obtain ⟨j', hj', hevolves⟩ := h.evolves number j hj
    rw [hj, Option.bind_some] at hbest
    rw [hj', Option.bind_some]
    exact hevolves.isSome_best hbest

namespace Holds

lemma works (h : c.Holds number id parent a) (hroom : parent.HasRoom)
    (hworks : Works (some parent.hash) c c') : c'.Holds number id parent a := by
  obtain ⟨j, hj, hpromises⟩ := h.job
  obtain ⟨j', hj', hevolves⟩ := hworks.evolves number j hj
  rw [h.script] at hevolves
  exact ⟨hworks.script.trans h.script, (hworks.lookup?_eq id).trans h.lookup, j', hj',
    hpromises.evolves hroom hevolves⟩

lemma fulfils (h : c.Holds number id parent a) {p : BuiltPayload}
    (hbest : c.best? number = some p) : p.Fulfils parent a := by
  obtain ⟨j, hj, hpromises⟩ := h.job
  rw [best?, hj] at hbest
  exact hpromises.fulfils p hbest

/-- A turn of the job ends with a payload. -/
lemma isSome_best?_turn (h : c.Holds number id parent a) (hroom : parent.HasRoom) :
    ((c.turn (some parent.hash) number).best? number).isSome = true := by
  have hworks : Works (some parent.hash) c (c.turn (some parent.hash) number) := .turn c _ number
  obtain ⟨j, hj, hpromises⟩ := h.job
  cases hbest : j.best with
  | some p => exact hworks.isSome_best? (by simp [best?, hj, hbest])
  | none =>
    have hgoes := hpromises.goesOn hbest
    have hnext : c.nextAnswer = .succeed := by simp [nextAnswer, h.script]
    have hlt := (List.getElem?_eq_some_iff.1 hj).1
    obtain ⟨journal, gauge, hconclude⟩ :=
      (c.note j).conclude_eq_with number (j.ask c.timing c.now .succeed)
    simp only [turn, hj, hpromises.resting hbest, hgoes, if_true, hnext]
    rw [best?, hconclude, note, List.getElem?_set_self hlt]
    exact (hpromises.attempt hroom c.timing c.now).2

/-- So there is a payload once everything is done that is due. -/
lemma isSome_best?_settle (h : c.Holds number id parent a) (hroom : parent.HasRoom)
    (hready : c.Ready number) :
    ((c.settle (some parent.hash)).best? number).isSome = true := by
  obtain hbest | ⟨w, hw, hnumber, htime⟩ := hready
  · exact (Moves.settle c _).works.isSome_best? hbest
  have hdue : number ∈ c.due :=
    List.mem_map.2 ⟨w, List.mem_filter.2 ⟨hw, by simpa using htime⟩, hnumber⟩
  exact Moves.settle_of_due (P := Holds number id parent a)
    (Q := fun c => (c.best? number).isSome = true) (fun _ _ hworks h => h.works hroom hworks)
    (fun _ h => h.isSome_best?_turn hroom) (fun _ _ hworks => hworks.isSome_best?) hdue h

/-- Whoever asks for the payload gets it. -/
theorem retrieve (h : c.Holds number id parent a) (hroom : parent.HasRoom)
    (hready : c.Ready number) :
    ∃ p, (c.retrieve (some parent.hash) id).1 = some p ∧ p.Fulfils parent a := by
  have hresolved := h.works hroom (.resolve c number)
  have hbest_resolve : (c.resolve number).best? number = c.best? number := by
    simp only [best?, resolve, modifyJob, List.getElem?_modify]
    cases c.jobs[number]? <;> rfl
  have hready : (c.resolve number).Ready number := by
    rw [Ready, hbest_resolve]
    exact hready
  simp only [Coordinator.retrieve, h.lookup]
  generalize c.resolve number = c' at hresolved hready
  unfold await
  split_ifs with hdone
  · -- without a payload the job is at rest, and not at its end
    obtain ⟨p, hp⟩ : ∃ p, c'.best? number = some p := by
      refine Option.ne_none_iff_exists'.1 fun hnone => ?_
      obtain ⟨j, hj, hpromises⟩ := hresolved.job
      have hbest : j.best = none := by simpa [best?, hj] using hnone
      simp [hnone, isActive, hj, Job.isFinished, hpromises.resting hbest] at hdone
    exact ⟨p, hp, hresolved.fulfils hp⟩
  · have hsettled := hresolved.isSome_best?_settle hroom hready
    obtain ⟨p, hp⟩ := Option.isSome_iff_exists.1 hsettled
    simp only [hsettled, if_true]
    exact ⟨p, hp, (hresolved.works hroom (Moves.settle c' _).works).fulfils hp⟩

end Holds

/-! ## Left alone -/

/-- What may happen to a coordinator that nobody calls. -/
inductive Passes (head : Option Hash) (c : Coordinator) : Coordinator → Prop where
  /-- What is due is done. -/
  | settle : Passes head c (c.settle head)
  /-- Time goes on. -/
  | runUntil {limit : Nat} (hlimit : c.now ≤ limit) : Passes head c (c.runUntil head limit)
  /-- The journal is taken. -/
  | clearJournal : Passes head c c.clearJournal

lemma Passes.works (h : Passes head c c') : Works head c c' := by
  cases h with
  | settle => exact (Moves.settle c head).works
  | runUntil _ => exact (Moves.runUntil c head _).works
  | clearJournal => exact .of_eq rfl rfl rfl rfl rfl

lemma Ready.passes (h : c.Ready number) (hholds : c.Holds number id parent a)
    (hroom : parent.HasRoom) (hpasses : Passes (some parent.hash) c c') : c'.Ready number := by
  cases hpasses with
  | settle => exact .inl (hholds.isSome_best?_settle hroom h)
  | clearJournal => exact h
  | @runUntil limit hlimit =>
    -- a time at which nothing is due yet keeps what was due before
    have hlater {c' : Coordinator} (hjobs : c'.jobs = c.jobs) (hwakeups : c'.wakeups = c.wakeups)
        (hnow : c.now ≤ c'.now) : c'.Ready number := by
      obtain hbest | ⟨w, hw, hnumber, htime⟩ := h
      · exact .inl (by rwa [best?, hjobs])
      · exact .inr ⟨w, hwakeups ▸ hw, hnumber, Nat.le_trans htime hnow⟩
    unfold Coordinator.runUntil
    cases limit - c.now with
    | zero => exact hlater rfl rfl hlimit
    | succ fuel =>
      cases hnext : c.nextTime? with
      | none =>
        simp only [runFor, hnext]
        exact hlater rfl rfl hlimit
      | some time =>
        simp only [runFor, hnext]
        split_ifs
        · exact hlater rfl rfl hlimit
        · have hready : { c with now := max c.now time }.Ready number :=
            hlater rfl rfl (Nat.le_max_left _ _)
          have hwoken : Works (some parent.hash) c { c with now := max c.now time } :=
            .of_eq rfl rfl rfl rfl rfl
          exact .inl ((Moves.runFor _ limit fuel _).works.isSome_best?
            ((hholds.works hroom hwoken).isSome_best?_settle hroom hready))

theorem holds_of_passes (hrun : Relation.ReflTransGen (Passes (some parent.hash)) c c')
    (hroom : parent.HasRoom) (hholds : c.Holds number id parent a) (hready : c.Ready number) :
    c'.Holds number id parent a ∧ c'.Ready number := by
  induction hrun with
  | refl => exact ⟨hholds, hready⟩
  | tail _ hpasses ih =>
    exact ⟨ih.1.works hroom hpasses.works, ih.2.passes ih.1 hroom hpasses⟩

/-! ## The start of a job -/

/-- A job that is started is in the table and has its first turn at once, whatever jobs there were
before. -/
theorem holds_start (hscript : c.script = []) (hid : (c.start parent a).result = .ok id) :
    (c.start parent a).after.Holds c.jobs.length id parent a ∧
      (c.start parent a).after.Ready c.jobs.length := by
  obtain ⟨jobs, table, hmade, hlength⟩ := c.makeRoom_eq_with parent.hash
  by_cases hpoisoned : c.poisoned = true
  · simp only [start, startAs, if_pos hpoisoned] at hid
    cases hid
  · simp only [start, startAs, if_neg hpoisoned, hmade] at hid ⊢
    cases hid
    refine ⟨⟨hscript, ?_, ?_⟩, .inr ⟨⟨jobs.length, c.now⟩, ?_, hlength, Nat.le_refl _⟩⟩
    · simp only [lookup?, place, if_neg hpoisoned, JobTable.insert_entries, Assoc.get?_insert,
        if_true, Option.map_some, hlength]
    · rw [← hlength]
      refine ⟨_, List.getElem?_concat_length, rfl, rfl, rfl, ?_, fun _ => rfl⟩
      rintro p ⟨⟩
    · exact List.mem_append_right _ (List.mem_singleton_self _)

end Coordinator

end ChainHead
