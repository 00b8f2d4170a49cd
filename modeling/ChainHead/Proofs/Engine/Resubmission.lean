import ChainHead.Proofs.Engine.Run

/-!
# Sending a request again

A request without attributes that is sent a second time is judged against the pointers that the
first time has set.  Its answer depends on nothing that the first time changes besides
(`Engine.answer_withMetrics`), so the question is whether pointers that were accepted may follow
themselves.

They may, but for one case: where no finalized block was set, pointers with a finalized block and
without a safe one are accepted, and then they refuse themselves (`OmitsSafe`).  Together with an
overflow, which poisons the pointers, this is all that keeps a request from being answered alike
twice (`Engine.resubmission_iff`).
-/

namespace ChainHead

/-- The first finalized block is set, and no safe block with it. -/
def OmitsSafe (current new : Heads) : Prop :=
  current.finalized = none ∧ new.finalized.isSome = true ∧ new.safe = none

/-- Pointers that were accepted may follow themselves unless they omit the safe block. -/
lemma Chain.KeepsFinality.again_iff {chain : Chain} {current new : Heads}
    (h : chain.KeepsFinality current new) :
    chain.KeepsFinality new new ↔ ¬ OmitsSafe current new := by
  rw [keepsFinality_self_iff]
  constructor
  · rintro hsafe ⟨-, hset, hnone⟩
    have hsome := hsafe hset
    rw [hnone] at hsome
    cases hsome
  · intro hnot hset
    cases hcurrent : current.finalized with
    | some f => exact (h f hcurrent).1
    | none =>
      by_contra hsafe
      exact hnot ⟨hcurrent, hset, Option.not_isSome_iff_eq_none.1 hsafe⟩

namespace Engine

variable {e : Engine} {v : Version} {param : ForkchoiceParam} {state : ForkchoiceState}
  {attributes : Option PayloadAttributes} {new : Heads} {answer : Answer} {after : Engine}

/-! ## What an answer depends on -/

lemma move_result_withMetrics (e : Engine) (metrics : Metrics) (new : Heads) :
    ({ e with metrics }.move new).result = (e.move new).result := by
  simp only [move]
  split_ifs
  · rfl
  · cases e.store.setHeads new <;> rfl

lemma apply_result_withMetrics (e : Engine) (metrics : Metrics) (state : ForkchoiceState) :
    ({ e with metrics }.apply state).result = (e.apply state).result := by
  simp only [apply]
  split_ifs
  · rfl
  · cases e.store.chain.judge e.heads state with
    | error failure => cases failure <;> rfl
    | ok resolution =>
      cases resolution with
      | resolved new => exact move_result_withMetrics e metrics new
      | unknown pointer => rfl
      | invalid latest refusal => rfl

/-- The answer to a request without attributes follows from what its fork choice comes to. -/
lemma handle_answer_eq {e e' : Engine} (hschedule : e'.schedule = e.schedule)
    (hresult : ∀ state, (e'.apply state).result = (e.apply state).result) :
    (e'.handle v param none).answer = (e.handle v param none).answer := by
  simp only [handle, hschedule]
  cases v.validate e.schedule param none with
  | error reason => rfl
  | ok state =>
    simp only [hresult state]
    cases (e.apply state).result with
    | error failure => cases failure <;> rfl
    | ok resolution => cases resolution <;> rfl

/-- What is measured has no influence on answers. -/
theorem answer_withMetrics (e : Engine) (metrics : Metrics) (v : Version)
    (param : ForkchoiceParam) :
    ({ e with metrics }.forkchoiceUpdated v param none).answer =
      (e.forkchoiceUpdated v param none).answer := by
  rw [forkchoiceUpdated_answer, forkchoiceUpdated_answer]
  exact handle_answer_eq rfl (apply_result_withMetrics e metrics)

/-! ## The second time -/

/-- The second outcome repeats the first one: its answer is the same, and the pointers and the store
are where the first one has left them. -/
structure Outcome.Repeats (second first : Outcome) : Prop where
  answer : second.answer = first.answer
  heads : second.after.currentHeads = first.after.currentHeads
  store : second.after.store = first.after.store

/-- Once its pointers are set, a fork choice is accepted again unless they omit the safe block. -/
lemma Accepts.again_iff (h : e.Accepts state new) (metrics : Metrics) :
    { e.moveTo new with metrics }.Accepts state new ↔ ¬ OmitsSafe e.heads new := by
  have hkeep := Chain.finalityObjection?_eq_none_iff.1 h.unopposed
  rw [← hkeep.again_iff]
  constructor
  · intro hagain
    have hunopposed := hagain.unopposed
    simp only [moveTo_chain, moveTo_heads] at hunopposed
    exact Chain.finalityObjection?_eq_none_iff.1 hunopposed
  · intro hself
    refine ⟨?_, ?_, ?_, .inl (moveTo_heads e new)⟩
    · simp only [moveTo_poisoned, h.unpoisoned]
    · simp only [moveTo_chain, h.resolves]
    · simp only [moveTo_chain, moveTo_heads]
      exact Chain.finalityObjection?_eq_none_iff.2 hself

lemma Accepts.eq_of_again {metrics : Metrics} (h : e.Accepts state new) {new' : Heads}
    (h' : { e.moveTo new with metrics }.Accepts state new') : new = new' := by
  have hresolves := h'.resolves
  simp only [moveTo_chain, h.resolves] at hresolves
  cases hresolves
  rfl

lemma again_of_not_accepts (hoverflow : (e.forkchoiceUpdated v param none).answer ≠ .overflow)
    (hnot : ¬ ∃ state new, v.validate e.schedule param none = .ok state ∧ e.Accepts state new) :
    let first := e.forkchoiceUpdated v param none
    let second := first.after.forkchoiceUpdated v param none
    first.after.heads = e.heads ∧ second.Repeats first := by
  intro first second
  have hfirst := e.answered v param none
  have hvalid : ∀ hash, first.answer ≠ .update ⟨.valid hash, none⟩ := by
    intro hash heq
    exact hnot (Answered.accepts_of_valid (heq ▸ hfirst))
  obtain ⟨metrics, hafter⟩ := hfirst.after_of_ne hoverflow hvalid
  have hanswer : second.answer = first.answer := by
    show (first.after.forkchoiceUpdated v param none).answer = first.answer
    rw [show first.after = { e with metrics } from hafter]
    exact answer_withMetrics e metrics v param
  obtain ⟨metrics', hafter'⟩ := (first.after.answered v param none).after_of_ne
    (hanswer ▸ hoverflow) (hanswer ▸ hvalid)
  refine ⟨?_, hanswer, ?_, ?_⟩
  · rw [show first.after = { e with metrics } from hafter]
  · rw [show second.after = { first.after with metrics := metrics' } from hafter']
    rfl
  · rw [show second.after = { first.after with metrics := metrics' } from hafter']

lemma again_of_accepts (hstate : v.validate e.schedule param none = .ok state)
    (haccept : e.Accepts state new) :
    let first := e.forkchoiceUpdated v param none
    let second := first.after.forkchoiceUpdated v param none
    first.answer ≠ .overflow ∧ first.after.heads = new ∧
      (second.Repeats first ↔ ¬ OmitsSafe e.heads new) := by
  intro first second
  obtain ⟨hanswer, metrics, hafter⟩ := (e.answered v param none).of_accepts hstate haccept
  have hanswer : first.answer = .update ⟨.valid new.head.hash, none⟩ := hanswer
  have hafter : first.after = { e.moveTo new with metrics } := hafter
  have hstate' : v.validate first.after.schedule param none = .ok state := by
    simp only [hafter, moveTo_schedule, hstate]
  have hsecond := first.after.answered v param none
  refine ⟨?_, ?_, ?_⟩
  · rw [hanswer]
    exact nofun
  · simp only [hafter, moveTo_heads]
  rw [← haccept.again_iff metrics, ← hafter]
  constructor
  · rintro ⟨hsame, -, -⟩
    obtain ⟨other, new', hother, hagain⟩ :=
      Answered.accepts_of_valid ((hsame.trans hanswer) ▸ hsecond)
    cases hstate'.symm.trans hother
    have hnew : new = new' := haccept.eq_of_again (hafter ▸ hagain)
    exact hnew ▸ hagain
  · intro hagain
    obtain ⟨hanswer', metrics', hafter'⟩ := hsecond.of_accepts hstate' hagain
    have hheads : first.after.heads = new := by simp only [hafter, moveTo_heads]
    have hafter' : second.after = { first.after with metrics := metrics' } := by
      rw [← hheads, moveTo_self] at hafter'
      exact hafter'
    refine ⟨hanswer'.trans hanswer.symm, ?_, ?_⟩
    · rw [hafter']
      rfl
    · rw [hafter']

/-- A request without attributes, sent twice in a row, is answered alike and changes nothing the
second time, exactly if it does not overflow and does not set the first finalized block without a
safe block. -/
theorem resubmission_iff (e : Engine) (v : Version) (param : ForkchoiceParam) :
    let first := e.forkchoiceUpdated v param none
    let second := first.after.forkchoiceUpdated v param none
    second.Repeats first ↔ first.answer ≠ .overflow ∧ ¬ OmitsSafe e.heads first.after.heads := by
  intro first second
  have hfirst : Answered e v param none first.answer first.after := e.answered v param none
  have hsecond : Answered first.after v param none second.answer second.after :=
    first.after.answered v param none
  by_cases haccept : ∃ state new, v.validate e.schedule param none = .ok state ∧ e.Accepts state new
  · obtain ⟨state, new, hstate, haccept⟩ := haccept
    obtain ⟨hoverflow, hheads, hagain⟩ := again_of_accepts hstate haccept
    rw [hagain, hheads, and_iff_right hoverflow]
  · by_cases hoverflow : first.answer = .overflow
    · refine iff_of_false ?_ (fun h => h.1 hoverflow)
      rintro ⟨hsame, -, -⟩
      have hpoisoned := (hoverflow ▸ hfirst).poisoned_of_overflow.2
      have hunpoisoned := ((hsame.trans hoverflow) ▸ hsecond).poisoned_of_overflow.1
      rw [hpoisoned] at hunpoisoned
      cases hunpoisoned
    · obtain ⟨hheads, hagain⟩ := again_of_not_accepts hoverflow haccept
      refine iff_of_true hagain ⟨hoverflow, ?_⟩
      rw [hheads]
      rintro ⟨hnone, hset, -⟩
      rw [hnone] at hset
      cases hset

/-- What a request is told that sets a finalized block without a safe one and is sent again. -/
lemma second_answer {f : Block} (hstate : v.validate e.schedule param none = .ok state)
    (haccept : e.Accepts state new) (hfinalized : new.finalized = some f)
    (hsafe : new.safe = none) :
    ((e.forkchoiceUpdated v param none).after.forkchoiceUpdated v param none).answer =
      .update ⟨.invalid (some f.hash) Refusal.safeUnset.message, none⟩ := by
  obtain ⟨-, metrics, hafter⟩ := (e.answered v param none).of_accepts hstate haccept
  have hobjection : e.store.chain.finalityObjection? new new =
      .ok (some (.invalid (some f.hash) .safeUnset)) := by
    simp only [Chain.finalityObjection?, hfinalized, hsafe, Option.isNone_none, if_true]
  have hjudge : e.store.chain.judge new state = .ok (.invalid (some f.hash) .safeUnset) := by
    unfold Chain.judge
    exact bind_eq_ok_iff.2 ⟨_, haccept.resolves, bind_eq_ok_iff.2 ⟨_, hobjection, rfl⟩⟩
  rw [hafter, forkchoiceUpdated_answer]
  simp only [handle, apply, moveTo_schedule, hstate, moveTo_poisoned, haccept.unpoisoned,
    Bool.false_eq_true, if_false, moveTo_chain, moveTo_heads, hjudge]

/-- The request that finalizes the first block without a safe block is accepted on a new chain, and
refused when it is sent again. -/
theorem resubmission_refused :
    Reachable twoBlocks ∧
      (twoBlocks.forkchoiceUpdated .v1 firstFinalized.request.toParam none).answer =
        .update ⟨.valid (hashOf 2), none⟩ ∧
      ((twoBlocks.forkchoiceUpdated .v1 firstFinalized.request.toParam
          none).after.forkchoiceUpdated .v1 firstFinalized.request.toParam none).answer =
        .update ⟨.invalid (some (hashOf 1))
          "safe block hash cannot be zero once finalized is set", none⟩ :=
  ⟨reachable_twoBlocks, answer_of_accepts twoBlocks_accepts_first,
    second_answer rfl twoBlocks_accepts_first rfl rfl⟩

end Engine

end ChainHead
