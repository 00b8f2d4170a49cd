import ChainHead.Engine
import ChainHead.Proofs.Database
import ChainHead.Proofs.Resolution

/-!
# How a request ends

A fork choice is accepted if the pointers can be held and written, and if it resolves to pointers
that keep finality (`Engine.Accepts`).  Whatever else happens to a request, it moves the pointers
exactly if its fork choice is accepted, and then to where that resolves (`Engine.moveTo`).

Before a payload job is started it is looked up once more whether the head is still the one that was
set.  It always is, as one request is answered after the other
(`Engine.headReplaced_notMem_notices`).

`Engine.Answered` lists the six ways in which a request can end, each with its answer and the engine
it leaves behind, and `Engine.answered` says that there are no others.  What is said about requests
elsewhere goes through these cases.
-/

namespace ChainHead

namespace Engine

variable {e : Engine} {v : Version} {param : ForkchoiceParam} {state : ForkchoiceState}
  {attributes : Option PayloadAttributes} {new : Heads} {answer : Answer} {after : Engine}

/-! ## Moving the pointers -/

/-- The engine with its pointers moved; where they do not change, nothing is written. -/
def moveTo (e : Engine) (new : Heads) : Engine :=
  if e.heads = new then e
  else { e with
    store := { e.store with database := e.store.database.setHeads new }
    heads := new
    metrics := e.metrics.showHeads new }

@[simp] lemma moveTo_heads (e : Engine) (new : Heads) : (e.moveTo new).heads = new := by
  unfold moveTo
  split_ifs with h
  · exact h
  · rfl

@[simp] lemma moveTo_schedule (e : Engine) (new : Heads) :
    (e.moveTo new).schedule = e.schedule := by
  unfold moveTo
  split_ifs <;> rfl

@[simp] lemma moveTo_poisoned (e : Engine) (new : Heads) :
    (e.moveTo new).poisoned = e.poisoned := by
  unfold moveTo
  split_ifs <;> rfl

@[simp] lemma moveTo_coordinator (e : Engine) (new : Heads) :
    (e.moveTo new).coordinator = e.coordinator := by
  unfold moveTo
  split_ifs <;> rfl

@[simp] lemma moveTo_faults (e : Engine) (new : Heads) :
    (e.moveTo new).store.faults = e.store.faults := by
  unfold moveTo
  split_ifs <;> rfl

/-- Moving the pointers does not touch what is known about blocks. -/
@[simp] lemma moveTo_chain (e : Engine) (new : Heads) :
    (e.moveTo new).store.chain = e.store.chain := by
  unfold moveTo
  split_ifs <;> rfl

@[simp] lemma moveTo_database_chain (e : Engine) (new : Heads) :
    (e.moveTo new).store.database.chain = e.store.database.chain := by
  unfold moveTo
  split_ifs <;> rfl

lemma moveTo_heads? (e : Engine) (new : Heads) :
    (e.moveTo new).store.database.heads? =
      if e.heads = new then e.store.database.heads? else .ok (some new) := by
  unfold moveTo
  split_ifs
  · rfl
  · exact Database.heads?_setHeads _ new

lemma moveTo_built (h : e.store.database.Built) (new : Heads) :
    (e.moveTo new).store.database.Built := by
  unfold moveTo
  split_ifs
  · exact h
  · exact .setHeads new h

/-- Pointers that are there already are not written. -/
lemma moveTo_self (e : Engine) : e.moveTo e.heads = e := if_pos rfl

/-! ## Accepting a fork choice -/

/-- The engine accepts the fork choice, which comes to these pointers. -/
structure Accepts (e : Engine) (state : ForkchoiceState) (new : Heads) : Prop where
  unpoisoned : e.poisoned = false
  resolves : e.store.chain.resolve state = .ok (.resolved new)
  unopposed : e.store.chain.finalityObjection? e.heads new = .ok none
  writable : e.heads = new ∨ e.store.faults.writes = false

lemma Accepts.unique {new' : Heads} (h : e.Accepts state new) (h' : e.Accepts state new') :
    new = new' := by
  have hresolves := h.resolves.symm.trans h'.resolves
  cases hresolves
  rfl

/-- An engine with the same pointers, over a store that has grown and rejects the head no more than
the other, accepts the fork choice as well. -/
lemma Accepts.grow {e' : Engine} (h : e.Accepts state new)
    (hgrow : e.store.chain.GrowsTo e'.store.chain)
    (hbad : e'.store.chain.badBlock? state.headBlockHash =
      e.store.chain.badBlock? state.headBlockHash)
    (hheads : e'.heads = e.heads) (hpoisoned : e'.poisoned = e.poisoned)
    (hfaults : e'.store.faults = e.store.faults) : e'.Accepts state new where
  unpoisoned := hpoisoned.trans h.unpoisoned
  resolves := Chain.resolve_eq_resolved_iff.2
    ((Chain.resolve_eq_resolved_iff.1 h.resolves).grow hgrow hbad)
  unopposed := by
    rw [hheads]
    exact Chain.finalityObjection?_eq_none_iff.2
      ((Chain.finalityObjection?_eq_none_iff.1 h.unopposed).grow hgrow)
  writable := by
    rw [hheads, hfaults]
    exact h.writable

lemma move_of_writable (h : e.heads = new ∨ e.store.faults.writes = false) :
    (e.move new).result = .ok (.resolved new) ∧ (e.move new).after = e.moveTo new := by
  unfold move moveTo
  split_ifs with hsame
  · exact ⟨rfl, rfl⟩
  · have hwrites := h.resolve_left hsame
    simp [Store.setHeads, hwrites]

lemma move_of_not_writable (h : ¬ (e.heads = new ∨ e.store.faults.writes = false)) :
    (e.move new).result = .error (.fault .diskFull) ∧ (e.move new).after = e := by
  rw [not_or, Bool.not_eq_false] at h
  simp [move, h.1, Store.setHeads, h.2]

lemma apply_of_accepts (h : e.Accepts state new) :
    (e.apply state).result = .ok (.resolved new) ∧ (e.apply state).after = e.moveTo new := by
  have hjudge := Chain.judge_eq_resolved_iff.2 ⟨h.resolves, h.unopposed⟩
  simp only [apply, h.unpoisoned, Bool.false_eq_true, if_false, hjudge]
  exact move_of_writable h.writable

/-- A fork choice that is not accepted changes nothing, unless it overflows. -/
lemma apply_of_not_accepts (h : ∀ new, ¬ e.Accepts state new) :
    (∀ new, (e.apply state).result ≠ .ok (.resolved new)) ∧
      (e.poisoned = false ∧ (e.apply state).result = .error .overflow ∧
          (e.apply state).after = { e with poisoned := true } ∨
        (e.apply state).result ≠ .error .overflow ∧ (e.apply state).after = e) := by
  unfold apply
  split_ifs with hpoisoned
  · exact ⟨nofun, .inr ⟨nofun, rfl⟩⟩
  · cases hjudge : e.store.chain.judge e.heads state with
    | error failure =>
      cases failure with
      | overflow => exact ⟨nofun, .inl ⟨Bool.eq_false_iff.2 hpoisoned, rfl, rfl⟩⟩
      | fault fault => exact ⟨nofun, .inr ⟨nofun, rfl⟩⟩
    | ok resolution =>
      cases resolution with
      | unknown pointer => exact ⟨nofun, .inr ⟨nofun, rfl⟩⟩
      | invalid latest refusal => exact ⟨nofun, .inr ⟨nofun, rfl⟩⟩
      | resolved new =>
        obtain ⟨hresolve, hobjection⟩ := Chain.judge_eq_resolved_iff.1 hjudge
        have hwritable : ¬ (e.heads = new ∨ e.store.faults.writes = false) := fun hwritable =>
          h new ⟨Bool.eq_false_iff.2 hpoisoned, hresolve, hobjection, hwritable⟩
        obtain ⟨hresult, hafter⟩ := move_of_not_writable hwritable
        refine ⟨?_, .inr ⟨?_, hafter⟩⟩
        · intro other h
          cases hresult.symm.trans h
        · intro h
          cases hresult.symm.trans h

/-! ## Starting a payload job -/

/-- A start is answered as valid, whether there is a job or not. -/
lemma startOn_answer (e : Engine) (head : Block) (a : PayloadAttributes) :
    (e.startOn head a).answer =
      .update ⟨.valid head.hash, (e.coordinator.start head a).result.toOption⟩ := by
  unfold startOn
  dsimp only
  cases (e.coordinator.start head a).result with
  | ok id => rfl
  | error fault => rfl

lemma startOn_after (e : Engine) (head : Block) (a : PayloadAttributes) :
    (e.startOn head a).after = { e with coordinator := (e.coordinator.start head a).after } := by
  unfold startOn
  dsimp only
  cases (e.coordinator.start head a).result with
  | ok id => rfl
  | error fault => rfl

lemma isHead_moveTo (hpoisoned : e.poisoned = false) (new : Heads) :
    (e.moveTo new).isHead new.head = true := by
  simp [isHead, jobHead, hpoisoned]

/-- Where a fork choice has resolved, its head is the head. -/
theorem isHead_of_resolved (hresult : (e.apply state).result = .ok (.resolved new)) :
    (e.apply state).after.isHead new.head = true := by
  by_cases haccept : ∃ new, e.Accepts state new
  · obtain ⟨moved, haccept⟩ := haccept
    obtain ⟨hmoved, hafter⟩ := apply_of_accepts haccept
    rw [hmoved, Except.ok.injEq, Resolution.resolved.injEq] at hresult
    rw [hafter, ← hresult]
    exact isHead_moveTo haccept.unpoisoned moved
  · exact absurd hresult ((apply_of_not_accepts (not_exists.1 haccept)).1 new)

lemma buildOn_of_isHead {head : Block} {a : PayloadAttributes} (hhead : e.isHead head = true)
    (htime : ¬ a.timestamp ≤ head.timestamp) : e.buildOn head (some a) = e.startOn head a := by
  simp only [buildOn, if_neg htime, if_pos hhead]

/-- To start a job on the head is all that a request with attributes may still do. -/
lemma buildOn_cases {head : Block} (hhead : e.isHead head = true)
    (attributes : Option PayloadAttributes) :
    (e.buildOn head attributes).notices = [] ∨
      ∃ a, e.buildOn head attributes = e.startOn head a := by
  cases attributes with
  | none => exact .inl rfl
  | some a =>
    by_cases htime : a.timestamp ≤ head.timestamp
    · simp only [buildOn, if_pos htime, true_or]
    · exact .inr ⟨a, buildOn_of_isHead hhead htime⟩

/-- The notices of a start tell of the jobs that go, of the new one, or why there is none. -/
lemma headReplaced_notMem_startOn (e : Engine) (head : Block) (a : PayloadAttributes)
    (hash : Hash) : .headReplaced hash ∉ (e.startOn head a).notices := by
  have hroom (c : Coordinator) : .headReplaced hash ∉ (c.makeRoom head.hash).1 := by
    simp [Coordinator.makeRoom]
  have hstart : .headReplaced hash ∉ (e.coordinator.start head a).notices := by
    simp only [Coordinator.start, Coordinator.startAs]
    split_ifs
    · simp
    · simp [hroom]
  unfold startOn
  dsimp only
  cases (e.coordinator.start head a).result with
  | ok id => exact hstart
  | error fault => simpa using hstart

lemma notices_move (e : Engine) (new : Heads) :
    (e.move new).notices = [] ∨ (e.move new).notices = [.moved new] := by
  unfold move
  split_ifs
  · exact .inl rfl
  · cases e.store.setHeads new with
    | error fault => exact .inl rfl
    | ok store => exact .inr rfl

lemma headReplaced_notMem_apply (e : Engine) (state : ForkchoiceState) (hash : Hash) :
    .headReplaced hash ∉ (e.apply state).notices := by
  unfold apply
  split_ifs
  · simp
  · match e.store.chain.judge e.heads state with
    | .ok (.resolved new) => obtain h | h := e.notices_move new <;> simp [h]
    | .ok (.unknown _) => simp
    | .ok (.invalid _ _) => simp
    | .error .overflow => simp
    | .error (.fault _) => simp

/-- No request finds the head replaced that it has just set: between the two there is nobody else
who could move it. -/
theorem headReplaced_notMem_notices (e : Engine) (v : Version) (param : ForkchoiceParam)
    (attributes : Option PayloadAttributes) (hash : Hash) :
    .headReplaced hash ∉ (e.forkchoiceUpdated v param attributes).notices := by
  have hcounted : (e.forkchoiceUpdated v param attributes).notices =
      (e.handle v param attributes).notices := by
    simp only [forkchoiceUpdated]
    split <;> rfl
  rw [hcounted, handle]
  cases v.validate e.schedule param attributes with
  | error reason => simp
  | ok state =>
    match hresult : (e.apply state).result with
    | .ok (.resolved new) =>
      have hbuild : .headReplaced hash ∉
          ((e.apply state).after.buildOn new.head attributes).notices := by
        obtain hnone | ⟨a, hstarts⟩ := buildOn_cases (isHead_of_resolved hresult) attributes
        · simp [hnone]
        · rw [hstarts]
          exact headReplaced_notMem_startOn _ _ a hash
      simp [hresult, hbuild, headReplaced_notMem_apply]
    | .ok (.unknown pointer) => simp [hresult]
    | .ok (.invalid latest refusal) => simp [hresult]
    | .error (.fault fault) => simp [hresult]
    | .error .overflow => simp [hresult]

/-! ## The ways in which a request ends -/

/-- How a request ends: its answer, and the engine after it. -/
inductive Answered (e : Engine) (v : Version) (param : ForkchoiceParam)
    (attributes : Option PayloadAttributes) : Answer → Engine → Prop where
  /-- It does not pass validation. -/
  | refused {reason : RequestError} (metrics : Metrics)
      (hreason : v.validate e.schedule param attributes = .error reason) :
      Answered e v param attributes (.error reason) { e with metrics }
  /-- It stops at an overflow while it holds the pointers. -/
  | overflowed {state : ForkchoiceState} (metrics : Metrics)
      (hstate : v.validate e.schedule param attributes = .ok state)
      (hnot : ∀ new, ¬ e.Accepts state new) (hunpoisoned : e.poisoned = false) :
      Answered e v param attributes .overflow { e with poisoned := true, metrics }
  /-- Its fork choice is not accepted. -/
  | rejected {state : ForkchoiceState} {status : PayloadStatus} (metrics : Metrics)
      (hstate : v.validate e.schedule param attributes = .ok state)
      (hnot : ∀ new, ¬ e.Accepts state new)
      (hstatus : status.verdict = .syncing ∨ ∃ reason, status.verdict = .invalid reason) :
      Answered e v param attributes (.update ⟨status, none⟩) { e with metrics }
  /-- Its fork choice is accepted, and it asks for no payload. -/
  | moved {state : ForkchoiceState} {new : Heads} (metrics : Metrics)
      (hstate : v.validate e.schedule param attributes = .ok state)
      (haccept : e.Accepts state new) (hnone : attributes = none) :
      Answered e v param attributes (.update ⟨.valid new.head.hash, none⟩)
        { e.moveTo new with metrics }
  /-- Its fork choice is accepted, but it asks for a payload that is not later than the head. -/
  | stale {state : ForkchoiceState} {new : Heads} {a : PayloadAttributes} (metrics : Metrics)
      (hstate : v.validate e.schedule param attributes = .ok state)
      (haccept : e.Accepts state new) (hsome : attributes = some a)
      (htime : a.timestamp ≤ new.head.timestamp) :
      Answered e v param attributes
        (.error (.attributesNotAfterHead a.timestamp new.head.timestamp))
        { e.moveTo new with metrics }
  /-- Its fork choice is accepted, and it asks for a payload on the head. -/
  | building {state : ForkchoiceState} {new : Heads} {a : PayloadAttributes} (metrics : Metrics)
      (hstate : v.validate e.schedule param attributes = .ok state)
      (haccept : e.Accepts state new) (hsome : attributes = some a)
      (htime : ¬ a.timestamp ≤ new.head.timestamp) :
      Answered e v param attributes
        (.update ⟨.valid new.head.hash, (e.coordinator.start new.head a).result.toOption⟩)
        { e.moveTo new with coordinator := (e.coordinator.start new.head a).after, metrics }

/-- Counting an answer changes the metrics and nothing else. -/
lemma forkchoiceUpdated_after (e : Engine) (v : Version) (param : ForkchoiceParam)
    (attributes : Option PayloadAttributes) :
    ∃ metrics, (e.forkchoiceUpdated v param attributes).after =
      { (e.handle v param attributes).after with metrics } := by
  simp only [forkchoiceUpdated]
  split
  · exact ⟨_, rfl⟩
  · exact ⟨_, rfl⟩

lemma forkchoiceUpdated_answer (e : Engine) (v : Version) (param : ForkchoiceParam)
    (attributes : Option PayloadAttributes) :
    (e.forkchoiceUpdated v param attributes).answer = (e.handle v param attributes).answer := by
  simp only [forkchoiceUpdated]
  split <;> rfl

lemma answered_of_accepts (v : Version) (param : ForkchoiceParam)
    (attributes : Option PayloadAttributes) (metrics : Metrics)
    (hstate : v.validate e.schedule param attributes = .ok state) (haccept : e.Accepts state new) :
    Answered e v param attributes (e.handle v param attributes).answer
      { (e.handle v param attributes).after with metrics } := by
  obtain ⟨hresult, hafter⟩ := apply_of_accepts haccept
  simp only [handle, hstate, hresult, hafter]
  cases attributes with
  | none => exact .moved metrics hstate haccept rfl
  | some a =>
    by_cases htime : a.timestamp ≤ new.head.timestamp
    · simp only [buildOn, if_pos htime]
      exact .stale metrics hstate haccept rfl htime
    · rw [buildOn_of_isHead (isHead_moveTo haccept.unpoisoned new) htime, startOn_answer,
        startOn_after]
      simp only [moveTo_coordinator]
      exact .building metrics hstate haccept rfl htime

lemma answered_of_not_accepts (v : Version) (param : ForkchoiceParam)
    (attributes : Option PayloadAttributes) (metrics : Metrics)
    (hstate : v.validate e.schedule param attributes = .ok state)
    (hnot : ∀ new, ¬ e.Accepts state new) :
    Answered e v param attributes (e.handle v param attributes).answer
      { (e.handle v param attributes).after with metrics } := by
  obtain ⟨hresolved, ⟨hunpoisoned, hresult, hafter⟩ | ⟨hresult, hafter⟩⟩ :=
    apply_of_not_accepts hnot
  · simp only [handle, hstate, hresult, hafter]
    exact .overflowed metrics hstate hnot hunpoisoned
  · simp only [handle, hstate, hafter]
    match happly : (e.apply state).result with
    | .ok (.resolved new) => exact absurd happly (hresolved new)
    | .ok (.unknown pointer) => exact .rejected metrics hstate hnot (.inl rfl)
    | .ok (.invalid latest refusal) => exact .rejected metrics hstate hnot (.inr ⟨_, rfl⟩)
    | .error (.fault fault) => exact .rejected metrics hstate hnot (.inr ⟨_, rfl⟩)
    | .error .overflow => exact absurd happly hresult

/-- Every request ends in one of these ways. -/
theorem answered (e : Engine) (v : Version) (param : ForkchoiceParam)
    (attributes : Option PayloadAttributes) :
    Answered e v param attributes (e.forkchoiceUpdated v param attributes).answer
      (e.forkchoiceUpdated v param attributes).after := by
  obtain ⟨metrics, hafter⟩ := e.forkchoiceUpdated_after v param attributes
  rw [forkchoiceUpdated_answer, hafter]
  cases hstate : v.validate e.schedule param attributes with
  | error reason =>
    simp only [handle, hstate]
    exact .refused metrics hstate
  | ok state =>
    by_cases haccept : ∃ new, e.Accepts state new
    · obtain ⟨new, haccept⟩ := haccept
      exact answered_of_accepts v param attributes metrics hstate haccept
    · exact answered_of_not_accepts v param attributes metrics hstate (not_exists.1 haccept)

/-! ## What an ending tells -/

/-- A request that does not overflow leaves the pointers and the store alone, or it moves the
pointers to where an accepted fork choice resolves. -/
lemma Answered.after_eq (h : Answered e v param attributes answer after)
    (hoverflow : answer ≠ .overflow) :
    (∃ metrics, after = { e with metrics }) ∨
      ∃ state new coordinator metrics, e.Accepts state new ∧
        after = { e.moveTo new with coordinator, metrics } := by
  cases h with
  | refused metrics _ => exact .inl ⟨metrics, rfl⟩
  | overflowed _ _ _ _ => exact absurd rfl hoverflow
  | rejected metrics _ _ _ => exact .inl ⟨metrics, rfl⟩
  | moved metrics _ haccept _ => exact .inr ⟨_, _, _, metrics, haccept, rfl⟩
  | stale metrics _ haccept _ _ => exact .inr ⟨_, _, _, metrics, haccept, rfl⟩
  | building metrics _ haccept _ _ => exact .inr ⟨_, _, _, metrics, haccept, rfl⟩

/-- A request that neither moves the pointers nor overflows changes nothing but the metrics. -/
lemma Answered.after_of_ne (h : Answered e v param none answer after)
    (hoverflow : answer ≠ .overflow)
    (hvalid : ∀ hash, answer ≠ .update ⟨.valid hash, none⟩) :
    ∃ metrics, after = { e with metrics } := by
  cases h with
  | refused metrics _ => exact ⟨metrics, rfl⟩
  | overflowed _ _ _ _ => exact absurd rfl hoverflow
  | rejected metrics _ _ _ => exact ⟨metrics, rfl⟩
  | moved _ _ _ _ => exact absurd rfl (hvalid _)
  | stale _ _ _ hsome _ => cases hsome
  | building _ _ _ hsome _ => cases hsome

/-- Only a request that finds the pointers unpoisoned overflows, and it leaves them poisoned. -/
lemma Answered.poisoned_of_overflow (h : Answered e v param attributes .overflow after) :
    e.poisoned = false ∧ after.poisoned = true := by
  cases h with
  | overflowed _ _ _ hunpoisoned => exact ⟨hunpoisoned, rfl⟩

lemma Answered.valid_of_overflow (h : Answered e v param attributes .overflow after) :
    ∃ state, v.validate e.schedule param attributes = .ok state := by
  cases h with
  | overflowed _ hstate _ _ => exact ⟨_, hstate⟩

/-- A fork choice that is accepted is answered as valid, and its pointers are set. -/
lemma Answered.of_accepts (h : Answered e v param none answer after)
    (hstate : v.validate e.schedule param none = .ok state) (haccept : e.Accepts state new) :
    answer = .update ⟨.valid new.head.hash, none⟩ ∧
      ∃ metrics, after = { e.moveTo new with metrics } := by
  cases h with
  | refused _ hreason =>
    rw [hreason] at hstate
    cases hstate
  | overflowed _ hstate' hnot _ =>
    cases hstate.symm.trans hstate'
    exact absurd haccept (hnot new)
  | rejected _ hstate' hnot _ =>
    cases hstate.symm.trans hstate'
    exact absurd haccept (hnot new)
  | moved metrics hstate' haccept' _ =>
    cases hstate.symm.trans hstate'
    cases haccept.unique haccept'
    exact ⟨rfl, metrics, rfl⟩
  | stale _ _ _ hsome _ => cases hsome
  | building _ _ _ hsome _ => cases hsome

/-- Only a fork choice that is accepted is answered as valid. -/
lemma Answered.accepts_of_valid {hash : Hash} {id : Option PayloadId}
    (h : Answered e v param attributes (.update ⟨.valid hash, id⟩) after) :
    ∃ state new, v.validate e.schedule param attributes = .ok state ∧ e.Accepts state new := by
  cases h with
  | rejected _ _ _ hstatus =>
    obtain hsyncing | ⟨reason, hinvalid⟩ := hstatus
    · cases hsyncing
    · cases hinvalid
  | moved _ hstate haccept _ => exact ⟨_, _, hstate, haccept⟩
  | building _ hstate haccept _ _ => exact ⟨_, _, hstate, haccept⟩

/-- A payload is named where a job was started on the head of an accepted fork choice. -/
lemma Answered.started {status : PayloadStatus} {id : PayloadId}
    (h : Answered e v param attributes (.update ⟨status, some id⟩) after) :
    ∃ state new a metrics, e.Accepts state new ∧ attributes = some a ∧
      new.head.timestamp < a.timestamp ∧ status = .valid new.head.hash ∧
      (e.coordinator.start new.head a).result = .ok id ∧
      after =
        { e.moveTo new with coordinator := (e.coordinator.start new.head a).after, metrics } := by
  generalize hanswer : Answer.update ⟨status, some id⟩ = answer at h
  cases h with
  | refused _ _ => cases hanswer
  | overflowed _ _ _ _ => cases hanswer
  | rejected _ _ _ _ => cases hanswer
  | moved _ _ _ _ => cases hanswer
  | stale _ _ _ _ _ => cases hanswer
  | @building state new a metrics _ haccept hsome htime =>
    rw [Answer.update.injEq, ForkChoiceUpdate.mk.injEq] at hanswer
    refine ⟨state, new, a, metrics, haccept, hsome, UInt64.not_le.1 htime, hanswer.1, ?_, rfl⟩
    match hstart : (e.coordinator.start new.head a).result with
    | .ok started =>
      rw [hstart] at hanswer
      cases hanswer.2
      rfl
    | .error _ =>
      rw [hstart] at hanswer
      cases hanswer.2

end Engine

end ChainHead
