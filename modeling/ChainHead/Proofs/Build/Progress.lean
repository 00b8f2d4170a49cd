import ChainHead.Proofs.Build.Calls
import ChainHead.Proofs.Build.Work
import ChainHead.Proofs.Failure

/-!
# Jobs that are not stopped

A payload job is stopped in its attempt if the builder crashes, or if the height of the block to
build overflows.  So a job on a block with a height above it is never stopped by a builder that does
not crash (`Coordinator.Keeps`).  This holds after each thing that may happen to the coordinator
(`Coordinator.Step.keeps`), and so at any time later (`Coordinator.Reaches.keeps`): other jobs are
started, cancelled and evicted, time goes on, and payloads are fetched, but none of these gives the
job another parent.
-/

namespace ChainHead

/-- There is a height above the block. -/
def Block.HasRoom (b : Block) : Prop := b.number.toNat + 1 < UInt64.size

/-- On such a block, and on no other, there is a block without transactions. -/
lemma BuildOrder.exists_emptyBlock_iff (order : BuildOrder) :
    (∃ p, order.emptyBlock = .ok p) ↔ order.parent.HasRoom := by
  unfold emptyBlock Block.HasRoom
  by_cases hroom : order.parent.number.toNat + 1 < UInt64.size
  · refine iff_of_true ?_ hroom
    rw [successor, if_pos hroom]
    exact ⟨_, rfl⟩
  · refine iff_of_false ?_ hroom
    rw [successor_eq_overflow_iff.2 hroom]
    rintro ⟨_, ⟨⟩⟩

variable {id : PayloadId} {parent : Block}

/-! ## One job -/

namespace Job

variable {timing : Timing} {script : List BuilderAnswer} {head : Option Hash} {j j' : Job}
  {kind : BuilderAnswer.Kind} {answer : BuilderAnswer}

/-- The job has this id and parent, and nothing has stopped it or is about to. -/
structure WorksOn (id : PayloadId) (parent : Block) (j : Job) : Prop where
  id_eq : j.id = id
  parent_eq : j.parent = parent
  not_crashed : j.phase ≠ .crashed
  not_crashing : j.phase ≠ .building .crash

lemma WorksOn.stop (h : j.WorksOn id parent) (notices : List Log.Notice) :
    (j.stop notices).job.WorksOn id parent :=
  ⟨h.id_eq, h.parent_eq, nofun, nofun⟩

lemma WorksOn.quit (h : j.WorksOn id parent) : j.quit.job.WorksOn id parent := by
  unfold Job.quit
  split_ifs
  · exact h.stop _
  · exact h.stop _

lemma WorksOn.rest (h : j.WorksOn id parent) (timing : Timing) (now : Nat)
    (notices : List Log.Notice) : (j.rest timing now notices).job.WorksOn id parent := by
  unfold Job.rest
  dsimp only
  split_ifs
  · exact ⟨h.id_eq, h.parent_eq, nofun, nofun⟩
  · exact ⟨h.id_eq, h.parent_eq, nofun, nofun⟩

lemma WorksOn.publish (h : j.WorksOn id parent) (p : BuiltPayload) :
    (j.publish p).WorksOn id parent :=
  ⟨h.id_eq, h.parent_eq, h.not_crashed, h.not_crashing⟩

/-- Whatever the builder answers, short of a crash, does not stop the job. -/
lemma WorksOn.answered (h : j.WorksOn id parent) (hroom : parent.HasRoom)
    (hkind : kind ≠ .crash) (timing : Timing) (now : Nat) :
    (j.answered timing now kind).job.WorksOn id parent := by
  have hparent : j.parent.HasRoom := by
    rw [h.parent_eq]
    exact hroom
  obtain ⟨p, hp⟩ := j.order.exists_emptyBlock_iff.2 hparent
  cases kind with
  | crash => exact absurd rfl hkind
  | failure =>
    unfold Job.answered
    dsimp only
    split_ifs
    · exact h.stop _
    · exact h.rest _ _ _
  | success =>
    simp only [Job.answered, hp]
    exact (h.publish p).rest _ _ _

lemma WorksOn.ask (h : j.WorksOn id parent) (hroom : parent.HasRoom)
    (hanswer : answer.kind ≠ .crash) (timing : Timing) (now : Nat) :
    (j.ask timing now answer).job.WorksOn id parent := by
  unfold Job.ask
  split_ifs
  · exact h.answered hroom hanswer timing now
  · exact ⟨h.id_eq, h.parent_eq, nofun, by simpa using hanswer⟩

/-- No step of a job stops it, as long as no answer in the script is a crash. -/
lemma WorksOn.step (h : j.WorksOn id parent) (hroom : parent.HasRoom)
    (hscript : ∀ answer ∈ script, answer.kind ≠ .crash) (hstep : j.Step timing script head j') :
    j'.WorksOn id parent := by
  cases hstep with
  | @attempt answer now _ _ hanswer =>
    refine h.ask hroom ?_ timing now
    obtain rfl | hmem := hanswer
    · exact nofun
    · exact hscript answer hmem
  | quit _ _ => exact h.quit
  | answer now hphase =>
    -- an answer that is under way was taken in an earlier turn, so the script says nothing about it
    refine h.answered hroom ?_ timing now
    rintro rfl
    exact h.not_crashing hphase
  | resolve => exact ⟨h.id_eq, h.parent_eq, h.not_crashed, h.not_crashing⟩

lemma WorksOn.evolves (h : j.WorksOn id parent) (hroom : parent.HasRoom)
    (hscript : ∀ answer ∈ script, answer.kind ≠ .crash)
    (hevolves : j.Evolves timing script head j') : j'.WorksOn id parent := by
  induction hevolves with
  | refl => exact h
  | tail _ hstep ih => exact ih.step hroom hscript hstep

end Job

namespace Coordinator

variable {c c' : Coordinator} {number : Nat} {head : Option Hash}

/-! ## Among other jobs -/

/-- The builder does not crash, and the job with this number works on its parent. -/
structure Keeps (number : Nat) (id : PayloadId) (parent : Block) (c : Coordinator) : Prop where
  script : ∀ answer ∈ c.script, answer.kind ≠ .crash
  job : ∃ j, c.jobs[number]? = some j ∧ j.WorksOn id parent

/-- Whoever calls the coordinator gives the job no other parent, and does not stop it in its
attempt. -/
lemma Keeps.marks (h : c.Keeps number id parent) (hmarks : Marks number c c') :
    c'.Keeps number id parent := by
  obtain ⟨j, hj, hworks⟩ := h.job
  obtain ⟨cancelled, resolved, hj', -⟩ := hmarks.job j hj
  exact ⟨hmarks.script ▸ h.script, _, hj', hworks.id_eq, hworks.parent_eq, hworks.not_crashed,
    hworks.not_crashing⟩

lemma Keeps.works (h : c.Keeps number id parent) (hroom : parent.HasRoom)
    (hworks : Works head c c') : c'.Keeps number id parent := by
  obtain ⟨j, hj, hon⟩ := h.job
  obtain ⟨j', hj', hevolves⟩ := hworks.evolves number j hj
  exact ⟨hworks.script ▸ h.script, j', hj', hon.evolves hroom h.script hevolves⟩

/-! ## Whatever happens -/

/-- What may happen to a coordinator. -/
inductive Step (c : Coordinator) : Coordinator → Prop where
  /-- A job is started. -/
  | start (b : Block) (a : PayloadAttributes) : Step c (c.start b a).after
  /-- A job is to be started where none can run. -/
  | startNowhere (b : Block) : Step c (c.startNowhere b).2.2
  /-- A job is cancelled. -/
  | cancel (id : PayloadId) : Step c (c.cancel id).2
  /-- A payload is fetched. -/
  | retrieve (head : Option Hash) (id : PayloadId) : Step c (c.retrieve head id).2
  /-- A request for a payload is left. -/
  | ask (id : PayloadId) : Step c (c.ask id).2
  /-- The answer to such a request is waited for. -/
  | join (head : Option Hash) (fetch : Nat) : Step c (c.join head fetch).2
  /-- What is due is done. -/
  | settle (head : Option Hash) : Step c (c.settle head)
  /-- Time goes on. -/
  | runUntil (head : Option Hash) (limit : Nat) : Step c (c.runUntil head limit)
  /-- The journal is taken. -/
  | clearJournal : Step c c.clearJournal

/-- Any number of things happen in between. -/
abbrev Reaches : Coordinator → Coordinator → Prop := Relation.ReflTransGen Step

theorem Step.keeps (hstep : Step c c') (hroom : parent.HasRoom) (h : c.Keeps number id parent) :
    c'.Keeps number id parent := by
  cases hstep with
  | start b a => exact h.marks (.start c b a)
  | startNowhere b => exact h.marks (.startNowhere c b)
  | cancel other => exact h.marks (.cancel c other)
  | retrieve head other => exact h.works hroom (Moves.retrieve c head other).works
  | ask other => exact h.marks (.of_eq rfl rfl rfl)
  | join head fetch => exact h.works hroom (Moves.join c head fetch).works
  | settle head => exact h.works hroom (Moves.settle c head).works
  | runUntil head limit => exact h.works hroom (Moves.runUntil c head limit).works
  | clearJournal => exact h.marks (.of_eq rfl rfl rfl)

theorem Reaches.keeps (hreach : Reaches c c') (hroom : parent.HasRoom)
    (h : c.Keeps number id parent) : c'.Keeps number id parent := by
  induction hreach with
  | refl => exact h
  | tail _ hstep ih => exact hstep.keeps hroom ih

/-! ## The start of a job -/

/-- Removing jobs touches the table and the marks on the jobs, and nothing else. -/
lemma foldl_remove_eq_with (c : Coordinator) (ids : List PayloadId) :
    ∃ jobs table, ids.foldl remove c = { c with jobs, table } ∧ jobs.length = c.jobs.length := by
  refine ids.foldlRecOn (motive := fun c' => ∃ jobs table, c' = { c with jobs, table } ∧
    jobs.length = c.jobs.length) remove ⟨c.jobs, c.table, rfl, rfl⟩ ?_
  rintro _ ⟨jobs, table, rfl, hlength⟩ id -
  unfold remove
  split
  · exact ⟨_, _, rfl, hlength⟩
  · exact ⟨_, _, rfl, (List.length_modify _ _ _).trans hlength⟩

lemma cancel_eq_with (c : Coordinator) (id : PayloadId) :
    ∃ jobs table, (c.cancel id).2 = { c with jobs, table } ∧ jobs.length = c.jobs.length := by
  unfold cancel
  split
  · exact c.foldl_remove_eq_with [id]
  · exact ⟨c.jobs, c.table, rfl, rfl⟩

/-- So making room starts no job. -/
lemma makeRoom_eq_with (c : Coordinator) (hash : Hash) :
    ∃ jobs table, (c.makeRoom hash).2 = { c with jobs, table } ∧
      jobs.length = c.jobs.length := by
  unfold makeRoom
  dsimp only
  obtain ⟨jobs, table, heq, hlength⟩ := c.foldl_remove_eq_with (c.table.superseded? hash).toList
  obtain ⟨jobs', table', heq', hlength'⟩ :=
    foldl_remove_eq_with { c with jobs, table } table.evicted
  rw [heq]
  exact ⟨jobs', table', heq', hlength'.trans hlength⟩

/-- A job that is placed gets the next number. -/
lemma place_job (c : Coordinator) (id : PayloadId) (b : Block) (a : PayloadAttributes) :
    ∃ j, (c.place id b a).jobs[c.jobs.length]? = some j ∧ j.WorksOn id b := by
  show ∃ j, (c.jobs ++ [_])[c.jobs.length]? = some j ∧ j.WorksOn id b
  exact ⟨_, List.getElem?_concat_length, rfl, rfl, nofun, nofun⟩

/-- A job that is started gets the next number and works on its parent. -/
theorem keeps_start {b : Block} {a : PayloadAttributes}
    (hscript : ∀ answer ∈ c.script, answer.kind ≠ .crash) (hid : (c.start b a).result = .ok id) :
    (c.start b a).after.Keeps c.jobs.length id b := by
  obtain ⟨jobs, table, hroom, hlength⟩ := c.makeRoom_eq_with b.hash
  by_cases hpoisoned : c.poisoned = true
  · simp only [start, startAs, if_pos hpoisoned] at hid
    cases hid
  · simp only [start, startAs, if_neg hpoisoned, hroom] at hid ⊢
    cases hid
    refine ⟨hscript, ?_⟩
    rw [← hlength]
    exact place_job { c with jobs, table } _ b a

end Coordinator

end ChainHead
