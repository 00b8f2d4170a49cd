import ChainHead.Proofs.Engine.Run

/-!
# The metrics follow the engine

The gauges are set when an engine is started and whenever a request moves the pointers, and nothing
else touches them, so they always show the heights of the pointers: also after a request that moved
them and was answered with an error, and after one whose pointers could not be written
(`Engine.follows_handle`).  Each answer is counted once, and so a counter says how many of the
answers had its label (`Engine.measured_of_served`).
-/

namespace ChainHead

/-- The number that 64 bits are when the first of them is a sign. -/
def asSigned (n : UInt64) : Int :=
  if 2 * n.toNat < UInt64.size then n.toNat else n.toNat - (UInt64.size : Int)

namespace Metrics

lemma toInt_toInt64 (n : UInt64) : n.toInt64.toInt = asSigned n := by
  have hbits : n.toInt64.toInt = n.toBitVec.toInt := rfl
  have hnat : n.toBitVec.toNat = n.toNat := rfl
  rw [hbits, BitVec.toInt_eq_toNat_cond, hnat]
  rfl

/-- A gauge shows the height of its pointer, or zero while that is unset. -/
lemma toInt_height (b : Option Block) :
    (height b).toInt = asSigned ((b.map Block.number).getD 0) := by
  cases b with
  | none => rfl
  | some b => exact toInt_toInt64 b.number

lemma responseCount_countResponse (m : Metrics) (label other : String) :
    (m.countResponse label).responseCount other =
      m.responseCount other + if other = label then 1 else 0 := by
  rw [responseCount, countResponse, Assoc.get?_insert]
  split_ifs with heq
  · rw [heq, Option.getD_some]
  · rfl

end Metrics

namespace Engine

variable {e e' : Engine} {v : Version} {param : ForkchoiceParam}
  {attributes : Option PayloadAttributes} {answer : Answer} {answers : List Answer}

/-! ## The gauges -/

/-- The gauges show the heights of the pointers. -/
def Shows (e : Engine) : Prop := e.metrics.showHeads e.heads = e.metrics

/-- No answer is counted, and the gauges go along with the pointers. -/
structure Follows (e e' : Engine) : Prop where
  responses : e'.metrics.responses = e.metrics.responses
  shows : e.Shows → e'.Shows

lemma follows_moveTo (e : Engine) (new : Heads) : Follows e (e.moveTo new) := by
  unfold moveTo
  split_ifs with hsame
  · exact ⟨rfl, fun hshows => hshows⟩
  · exact ⟨rfl, fun _ => rfl⟩

/-- The gauges are set as soon as the pointers are, and not where their writing fails. -/
lemma follows_apply (e : Engine) (state : ForkchoiceState) : Follows e (e.apply state).after := by
  by_cases haccept : ∃ new, e.Accepts state new
  · obtain ⟨new, haccept⟩ := haccept
    rw [(apply_of_accepts haccept).2]
    exact follows_moveTo e new
  · obtain ⟨-, ⟨-, -, hafter⟩ | ⟨-, hafter⟩⟩ := apply_of_not_accepts (not_exists.1 haccept) <;>
    · rw [hafter]
      exact ⟨rfl, fun hshows => hshows⟩

/-- To start a payload job changes neither the pointers nor the metrics. -/
lemma buildOn_after (e : Engine) (head : Block) (attributes : Option PayloadAttributes) :
    ∃ coordinator, (e.buildOn head attributes).after = { e with coordinator } := by
  unfold buildOn
  cases attributes with
  | none => exact ⟨_, rfl⟩
  | some a =>
    dsimp only
    split_ifs
    · exact ⟨_, rfl⟩
    · exact ⟨_, e.startOn_after head a⟩
    · exact ⟨_, rfl⟩

lemma follows_handle (e : Engine) (v : Version) (param : ForkchoiceParam)
    (attributes : Option PayloadAttributes) : Follows e (e.handle v param attributes).after := by
  unfold handle
  cases v.validate e.schedule param attributes with
  | error reason => exact ⟨rfl, fun hshows => hshows⟩
  | ok state =>
    have hfollows := e.follows_apply state
    match hresult : (e.apply state).result with
    | .ok (.resolved heads) =>
      obtain ⟨coordinator, hafter⟩ := (e.apply state).after.buildOn_after heads.head attributes
      simp only [hresult, hafter]
      exact ⟨hfollows.responses, hfollows.shows⟩
    | .ok (.unknown pointer) => simpa only [hresult] using hfollows
    | .ok (.invalid latest refusal) => simpa only [hresult] using hfollows
    | .error (.fault fault) => simpa only [hresult] using hfollows
    | .error .overflow => simpa only [hresult] using hfollows

/-! ## The counters -/

/-- The answer is of a status with that name, or an error of a kind with that name. -/
def Answer.Bears (label : String) : Answer → Prop
  | .update answer => answer.payloadStatus.verdict.name = label
  | .error reason => reason.kind.name = label
  | .overflow => False

instance (label : String) : DecidablePred (Answer.Bears label) := fun answer =>
  match answer with
  | .update answer => inferInstanceAs (Decidable (answer.payloadStatus.verdict.name = label))
  | .error reason => inferInstanceAs (Decidable (reason.kind.name = label))
  | .overflow => inferInstanceAs (Decidable False)

lemma Answer.bears_iff (label : String) : answer.Bears label ↔ answer.label? = some label := by
  cases answer with
  | update answer => exact (Option.some_inj).symm
  | error reason => exact (Option.some_inj).symm
  | overflow => exact iff_of_false id nofun

/-- A call that does not overflow is counted, under the label of its answer and no other. -/
lemma responseCount_forkchoiceUpdated (e : Engine) (v : Version) (param : ForkchoiceParam)
    (attributes : Option PayloadAttributes) (label : String) :
    (e.forkchoiceUpdated v param attributes).after.metrics.responseCount label =
      e.metrics.responseCount label +
        if (e.forkchoiceUpdated v param attributes).answer.Bears label then 1 else 0 := by
  have hresponses := (e.follows_handle v param attributes).responses
  have hhandle (label : String) : (e.handle v param attributes).after.metrics.responseCount label =
      e.metrics.responseCount label := by
    rw [Metrics.responseCount, hresponses, Metrics.responseCount]
  simp only [Answer.bears_iff, forkchoiceUpdated_answer]
  cases hlabel : (e.handle v param attributes).answer.label? with
  | none => simp only [forkchoiceUpdated, hlabel, hhandle, reduceCtorEq, if_false, Nat.add_zero]
  | some own =>
    simp only [forkchoiceUpdated, hlabel, Metrics.responseCount_countResponse, hhandle,
      Option.some.injEq, eq_comm]

lemma shows_forkchoiceUpdated (hshows : e.Shows) (v : Version) (param : ForkchoiceParam)
    (attributes : Option PayloadAttributes) :
    (e.forkchoiceUpdated v param attributes).after.Shows := by
  have hhandle := (e.follows_handle v param attributes).shows hshows
  simp only [forkchoiceUpdated]
  cases (e.handle v param attributes).answer.label? with
  | none => exact hhandle
  | some label => exact congrArg (Metrics.countResponse · label) hhandle

lemma Answer.exists_unique_bears (h : answer ≠ .overflow) : ∃! label, answer.Bears label := by
  cases answer with
  | update answer => exact ⟨_, rfl, fun _ => Eq.symm⟩
  | error reason => exact ⟨_, rfl, fun _ => Eq.symm⟩
  | overflow => exact absurd rfl h

/-! ## Whole runs -/

/-- A process has started this engine, and since then the engine has given these answers, the last
one last. -/
inductive Served : List Answer → Engine → Prop where
  /-- The engine of a process that has counted nothing yet. -/
  | start {store : Store} {schedule : Schedule} {coordinator : Coordinator} {e : Engine}
      (hstart : Engine.start store schedule coordinator = .ok e) : Served [] e
  /-- A request is answered. -/
  | request {answers : List Answer} {e : Engine} (h : Served answers e) (v : Version)
      (param : ForkchoiceParam) (attributes : Option PayloadAttributes)
      (hanswer : (e.forkchoiceUpdated v param attributes).answer ≠ .overflow) :
      Served (answers ++ [(e.forkchoiceUpdated v param attributes).answer])
        (e.forkchoiceUpdated v param attributes).after
  /-- Between requests the store changes, its calls begin or cease to fail, and jobs work. -/
  | pass {answers : List Answer} {e : Engine} (h : Served answers e) (store : Store)
      (coordinator : Coordinator) : Served answers { e with store, coordinator }

/-- The metrics are those of an engine that has given these answers. -/
structure Measured (answers : List Answer) (e : Engine) : Prop where
  /-- The pointers can be read. -/
  readable : e.currentHeads = .ok e.heads
  /-- A gauge shows the height of the head. -/
  head : e.metrics.head.toInt = asSigned e.heads.head.number
  /-- A gauge shows the height of the safe block. -/
  safe : e.metrics.safe.toInt = asSigned ((e.heads.safe.map Block.number).getD 0)
  /-- A gauge shows the height of the finalized block. -/
  finalized : e.metrics.finalized.toInt = asSigned ((e.heads.finalized.map Block.number).getD 0)
  /-- Under each label the answers that bear it were counted. -/
  responses : ∀ label, e.metrics.responseCount label =
    answers.countP fun answer => answer.Bears label
  /-- Each answer bears one label. -/
  labels : ∀ answer ∈ answers, ∃! label, answer.Bears label

/-- What holds of the engine itself after each step. -/
structure Observed (answers : List Answer) (e : Engine) : Prop where
  unpoisoned : e.poisoned = false
  shows : e.Shows
  responses : ∀ label, e.metrics.responseCount label =
    answers.countP fun answer => answer.Bears label
  labels : ∀ answer ∈ answers, answer ≠ .overflow

lemma observed_of_start {store : Store} {schedule : Schedule} {coordinator : Coordinator}
    (hstart : Engine.start store schedule coordinator = .ok e) : Observed [] e := by
  obtain ⟨heads, -, rfl⟩ := start_eq_ok_iff.1 hstart
  exact ⟨rfl, rfl, fun _ => rfl, nofun⟩

lemma Observed.request (h : Observed answers e) (v : Version) (param : ForkchoiceParam)
    (attributes : Option PayloadAttributes)
    (hanswer : (e.forkchoiceUpdated v param attributes).answer ≠ .overflow) :
    Observed (answers ++ [(e.forkchoiceUpdated v param attributes).answer])
      (e.forkchoiceUpdated v param attributes).after where
  unpoisoned := by
    obtain ⟨metrics, hafter⟩ | ⟨state, new, coordinator, metrics, -, hafter⟩ :=
      (e.answered v param attributes).after_eq hanswer
    · rw [hafter]
      exact h.unpoisoned
    · rw [hafter]
      exact (e.moveTo_poisoned new).trans h.unpoisoned
  shows := shows_forkchoiceUpdated h.shows v param attributes
  responses label := by
    rw [responseCount_forkchoiceUpdated, h.responses, List.countP_append, List.countP_singleton]
    simp only [decide_eq_true_eq]
  labels answer hmem := by
    obtain hmem | hmem := List.mem_append.1 hmem
    · exact h.labels answer hmem
    · rw [List.mem_singleton.1 hmem]
      exact hanswer

theorem observed_of_served (h : Served answers e) : Observed answers e := by
  induction h with
  | start hstart => exact observed_of_start hstart
  | request _ v param attributes hanswer ih => exact ih.request v param attributes hanswer
  | pass _ store coordinator ih => exact ⟨ih.unpoisoned, ih.shows, ih.responses, ih.labels⟩

/-- After each answer, and at any time between, the gauges show the heights of the pointers, and the
counters the numbers of answers with their label. -/
theorem measured_of_served (h : Served answers e) : Measured answers e := by
  have hobserved := observed_of_served h
  have hshows := hobserved.shows
  refine ⟨?_, ?_, ?_, ?_, hobserved.responses, fun answer hmem =>
    answer.exists_unique_bears (hobserved.labels answer hmem)⟩
  · rw [currentHeads, hobserved.unpoisoned]
    rfl
  · rw [← congrArg Metrics.head hshows]
    exact Metrics.toInt_toInt64 _
  · rw [← congrArg Metrics.safe hshows]
    exact Metrics.toInt_height _
  · rw [← congrArg Metrics.finalized hshows]
    exact Metrics.toInt_height _

/-- An engine that has finalized the first of two blocks. -/
theorem measured_of_served_afterFirst :
    Served [.update ⟨.valid secondBlock.hash, none⟩] afterFirst ∧
      Measured [.update ⟨.valid secondBlock.hash, none⟩] afterFirst := by
  have hstart : Served [] oneBlock := by
    refine .start (start_eq_ok_iff.2 ⟨_, ?_, rfl⟩)
    exact Database.heads?_setHeads _ _
  have htwo : Served [] twoBlocks := hstart.pass twoBlocks.store twoBlocks.coordinator
  have hanswer := answer_of_accepts twoBlocks_accepts_first
  have hno : (twoBlocks.forkchoiceUpdated .v1 firstFinalized.request.toParam none).answer ≠
      .overflow := by
    rw [hanswer]
    exact nofun
  have hrequest := htwo.request .v1 firstFinalized.request.toParam none hno
  have hserved : Served [.update ⟨.valid secondBlock.hash, none⟩] afterFirst := by
    rw [hanswer] at hrequest
    rw [afterFirst, update]
    exact hrequest
  exact ⟨hserved, measured_of_served hserved⟩

end Engine

end ChainHead
