import ChainHead.Proofs.Engine.AllOrNothing

/-!
# What an answer says about the judgement

A valid request is answered from what its fork choice comes to (`Engine.answer_of_valid`).  Unless
that is an approval or a fault, it is the judgement of the chain (`Engine.judge_of_result`), and
where the pointers can be held and written it is the judgement in any case
(`Engine.apply_result_of_writable`).
-/

namespace ChainHead

namespace Engine

variable {e : Engine} {v : Version} {param : ForkchoiceParam} {state : ForkchoiceState}
  {attributes : Option PayloadAttributes} {result : Except Failure Resolution}

/-! ## From the judgement to the result -/

lemma move_result_cases (e : Engine) (new : Heads) :
    (e.move new).result = .ok (.resolved new) ∨
      ∃ fault, (e.move new).result = .error (.fault fault) := by
  by_cases h : e.heads = new ∨ e.store.faults.writes = false
  · exact .inl (move_of_writable h).1
  · exact .inr ⟨_, (move_of_not_writable h).1⟩

/-- What is neither an approval nor a fault is the judgement of the chain. -/
lemma judge_of_result (hresult : (e.apply state).result = result)
    (hresolved : ∀ new, result ≠ .ok (.resolved new))
    (hfault : ∀ fault, result ≠ .error (.fault fault)) :
    e.store.chain.judge e.heads state = result := by
  subst hresult
  unfold apply at hresolved hfault ⊢
  split_ifs at hresolved hfault ⊢ with hpoisoned
  · exact absurd rfl (hfault .lockPoisoned)
  · match hjudge : e.store.chain.judge e.heads state with
    | .ok (.resolved new) =>
      rw [hjudge] at hresolved hfault
      obtain hmoved | ⟨fault, hmoved⟩ := e.move_result_cases new
      · exact absurd hmoved (hresolved new)
      · exact absurd hmoved (hfault fault)
    | .ok (.unknown _) => rfl
    | .ok (.invalid _ _) => rfl
    | .error .overflow => rfl
    | .error (.fault _) => rfl

/-- Where the pointers can be held and written, the result is the judgement of the chain. -/
lemma apply_result_of_writable (hpoisoned : e.poisoned = false)
    (hwrites : e.store.faults.writes = false) :
    (e.apply state).result = e.store.chain.judge e.heads state := by
  unfold apply
  rw [hpoisoned]
  match e.store.chain.judge e.heads state with
  | .ok (.resolved new) => exact (move_of_writable (.inr hwrites)).1
  | .ok (.unknown _) => rfl
  | .ok (.invalid _ _) => rfl
  | .error .overflow => rfl
  | .error (.fault _) => rfl

/-! ## From the result to the answer -/

/-- A payload job on the head is started after the fork choice was applied. -/
lemma buildOn_applies (e : Engine) (head : Block) (attributes : Option PayloadAttributes) :
    (e.buildOn head attributes).answer.Applies := by
  unfold buildOn
  cases attributes with
  | none => exact .inl rfl
  | some a =>
    dsimp only
    split_ifs
    · exact .inr rfl
    · rw [startOn_answer]
      exact .inl rfl
    · exact .inl rfl

/-- How a result is answered. -/
inductive AnsweredFrom : Except Failure Resolution → Answer → Prop where
  | applied {heads : Heads} {answer : Answer} (h : answer.Applies) :
      AnsweredFrom (.ok (.resolved heads)) answer
  | syncing (pointer : Pointer) :
      AnsweredFrom (.ok (.unknown pointer)) (.update ⟨.syncing, none⟩)
  | refused (latest : Option Hash) (refusal : Refusal) :
      AnsweredFrom (.ok (.invalid latest refusal)) (.update ⟨.invalid latest refusal.message, none⟩)
  | failed (fault : Fault) :
      AnsweredFrom (.error (.fault fault)) (.update ⟨failedStatus fault, none⟩)
  | overflowed : AnsweredFrom (.error .overflow) .overflow

theorem answer_of_valid (hstate : v.validate e.schedule param attributes = .ok state) :
    AnsweredFrom (e.apply state).result (e.forkchoiceUpdated v param attributes).answer := by
  rw [forkchoiceUpdated_answer]
  simp only [handle, hstate]
  cases (e.apply state).result with
  | ok resolution =>
    cases resolution with
    | resolved heads => exact .applied (buildOn_applies _ _ _)
    | unknown pointer => exact .syncing pointer
    | invalid latest refusal => exact .refused latest refusal
  | error failure =>
    cases failure with
    | fault fault => exact .failed fault
    | overflow => exact .overflowed

/-- A request that overflows was judged until its chain overflowed. -/
lemma judge_of_overflow (hanswer : (e.forkchoiceUpdated v param attributes).answer = .overflow) :
    ∃ state, e.store.chain.judge e.heads state = .error .overflow := by
  have hends := e.answered v param attributes
  rw [hanswer] at hends
  obtain ⟨state, hstate⟩ := hends.valid_of_overflow
  have hfrom := answer_of_valid hstate
  rw [hanswer] at hfrom
  generalize hresult : (e.apply state).result = result at hfrom
  cases hfrom with
  | applied h => exact absurd h (not_or.2 ⟨nofun, nofun⟩)
  | overflowed => exact ⟨state, judge_of_result hresult nofun nofun⟩

lemma answer_of_judge_overflow (hstate : v.validate e.schedule param attributes = .ok state)
    (hpoisoned : e.poisoned = false)
    (hjudge : e.store.chain.judge e.heads state = .error .overflow) :
    (e.forkchoiceUpdated v param attributes).answer = .overflow := by
  rw [forkchoiceUpdated_answer]
  simp only [handle, hstate, apply, hpoisoned, Bool.false_eq_true, if_false, hjudge]

/-- A fork choice that is judged invalid is refused in the same words. -/
lemma answer_of_judge_invalid {latest : Option Hash} {refusal : Refusal}
    (hstate : v.validate e.schedule param attributes = .ok state) (hpoisoned : e.poisoned = false)
    (hjudge : e.store.chain.judge e.heads state = .ok (.invalid latest refusal)) :
    (e.forkchoiceUpdated v param attributes).answer =
      .update ⟨.invalid latest refusal.message, none⟩ := by
  rw [forkchoiceUpdated_answer]
  simp only [handle, hstate, apply, hpoisoned, Bool.false_eq_true, if_false, hjudge]

end Engine

end ChainHead
