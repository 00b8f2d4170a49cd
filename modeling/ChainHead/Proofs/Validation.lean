import ChainHead.Proofs.Failure
import ChainHead.Request

/-!
# Valid requests

A request passes validation exactly if it is a complete fork choice and its attributes, if it has
any, fit the version (`Version.validate_eq_ok_iff`).  One that does not pass is refused for its
parameters or for its fork (`Version.kind_of_validate_eq_error`).
-/

namespace ChainHead

lemma ForkchoiceParam.require_eq_ok_iff {pointer : Pointer} {hash : Option Hash} {found : Hash} :
    require pointer hash = .ok found ↔ hash = some found := by
  cases hash with
  | none =>
    constructor <;>
      · intro h
        cases h
  | some other => simp only [require, Except.ok.injEq, Option.some.injEq]

lemma ForkchoiceParam.kind_of_require_eq_error {pointer : Pointer} {hash : Option Hash}
    {reason : RequestError} (h : require pointer hash = .error reason) :
    reason.kind = .invalidParams := by
  cases hash with
  | none =>
    cases h
    rfl
  | some found => cases h

/-- A fork choice passes if it holds all its hashes, and then it stays as it is. -/
lemma ForkchoiceParam.validate_eq_ok_iff {param : ForkchoiceParam} {state : ForkchoiceState} :
    param.validate = .ok state ↔ param = state.toParam := by
  obtain ⟨head, safe, finalized⟩ := param
  unfold validate
  constructor
  · intro h
    obtain ⟨_, hhead, h⟩ := bind_eq_ok_iff.1 h
    obtain ⟨_, hsafe, h⟩ := bind_eq_ok_iff.1 h
    obtain ⟨_, hfinalized, ⟨⟩⟩ := bind_eq_ok_iff.1 h
    rw [require_eq_ok_iff] at hhead hsafe hfinalized
    subst hhead hsafe hfinalized
    rfl
  · rintro ⟨⟩
    rfl

lemma ForkchoiceParam.kind_of_validate_eq_error {param : ForkchoiceParam} {reason : RequestError}
    (h : param.validate = .error reason) : reason.kind = .invalidParams := by
  unfold validate at h
  obtain h | ⟨_, -, h⟩ := bind_eq_error_iff.1 h
  · exact kind_of_require_eq_error h
  obtain h | ⟨_, -, h⟩ := bind_eq_error_iff.1 h
  · exact kind_of_require_eq_error h
  obtain h | ⟨_, -, h⟩ := bind_eq_error_iff.1 h
  · exact kind_of_require_eq_error h
  · cases h

namespace Version

variable {v : Version} {schedule : Schedule} {param : ForkchoiceParam}
  {attributes : Option PayloadAttributes} {reason : RequestError}

theorem validate_eq_ok_iff {state : ForkchoiceState} :
    v.validate schedule param attributes = .ok state ↔
      param = state.toParam ∧ ∀ a ∈ attributes,
        v.validateAttributes a = .ok () ∧ v.validateFork schedule a.timestamp = .ok () := by
  rw [← ForkchoiceParam.validate_eq_ok_iff]
  unfold validate
  rw [bind_eq_ok_iff]
  cases attributes with
  | none =>
    constructor
    · rintro ⟨_, h, ⟨⟩⟩
      exact ⟨h, nofun⟩
    · rintro ⟨h, -⟩
      exact ⟨_, h, rfl⟩
  | some a =>
    constructor
    · rintro ⟨_, hparam, h⟩
      obtain ⟨⟨⟩, hattributes, h⟩ := bind_eq_ok_iff.1 h
      obtain ⟨⟨⟩, hfork, ⟨⟩⟩ := bind_eq_ok_iff.1 h
      refine ⟨hparam, ?_⟩
      rintro _ ⟨⟩
      exact ⟨hattributes, hfork⟩
    · rintro ⟨hparam, h⟩
      obtain ⟨hattributes, hfork⟩ := h a rfl
      exact ⟨_, hparam, bind_eq_ok_iff.2 ⟨_, hattributes, bind_eq_ok_iff.2 ⟨_, hfork, rfl⟩⟩⟩

lemma kind_of_validateAttributes_eq_error {a : PayloadAttributes}
    (h : v.validateAttributes a = .error reason) : reason.kind = .invalidParams := by
  unfold validateAttributes at h
  split at h
  · cases h
    rfl
  · cases h

lemma kind_of_validateFork_eq_error {time : UInt64}
    (h : v.validateFork schedule time = .error reason) : reason.kind = .unsupportedFork := by
  unfold validateFork at h
  split at h
  · cases h
  · split at h
    · split_ifs at h
      cases h
      rfl
    · cases h
      rfl

/-- A request is refused for its parameters or for its fork. -/
theorem kind_of_validate_eq_error (h : v.validate schedule param attributes = .error reason) :
    reason.kind = .invalidParams ∨ reason.kind = .unsupportedFork := by
  unfold validate at h
  obtain hparam | ⟨_, -, h⟩ := bind_eq_error_iff.1 h
  · exact .inl (ForkchoiceParam.kind_of_validate_eq_error hparam)
  cases attributes with
  | none => cases h
  | some a =>
    obtain hattributes | ⟨_, -, h⟩ := bind_eq_error_iff.1 h
    · exact .inl (kind_of_validateAttributes_eq_error hattributes)
    obtain hfork | ⟨_, -, h⟩ := bind_eq_error_iff.1 h
    · exact .inr (kind_of_validateFork_eq_error hfork)
    · cases h

end Version

end ChainHead
