import ChainHead.Proofs.Schedule.Entries
import ChainHead.Proofs.Validation

/-!
# The order of the checks

A request is held against six checks: its three hashes are there, the two attributes that a version
may require are there, and the fork of the version is active.  `Check.Fails` says of each check on
its own when a request fails it and for which reason.  Validation reports the reason of the first
check in the order `Check.all` that the request fails, and a request that fails none passes with the
hashes it came with (`Version.validate_screens`).

The check of the fork looks its milestone up by itself.  It comes to the same as asking the schedule
whether the fork is active (`Version.validateFork_eq_ok_iff`), so what passes goes on to pass for
later payloads.
-/

namespace ChainHead

/-- The hash of a pointer, if the request holds it. -/
def ForkchoiceParam.hash? (param : ForkchoiceParam) : Pointer → Option Hash
  | .head => param.headBlockHash
  | .safe => param.safeBlockHash
  | .finalized => param.finalizedBlockHash

/-- What a request is checked for. -/
inductive Check where
  /-- A hash is there. -/
  | hash (pointer : Pointer)
  /-- An attribute is there, if the version requires it. -/
  | required (field : AttributeField)
  /-- The fork of the version is active. -/
  | fork
deriving DecidableEq

namespace Check

/-- The checks, the one that counts first in front. -/
def all : List Check :=
  [.hash .head, .hash .safe, .hash .finalized, .required .withdrawals,
    .required .parentBeaconBlockRoot, .fork]

/-- The kind of error that a failed check is reported as. -/
def kind : Check → RequestError.Kind
  | .hash _ => .invalidParams
  | .required _ => .invalidParams
  | .fork => .unsupportedFork

variable {v : Version} {schedule : Schedule} {param : ForkchoiceParam}
  {attributes : Option PayloadAttributes} {check : Check} {reason : RequestError}

/-- The request fails the check, for that reason. -/
inductive Fails (v : Version) (schedule : Schedule) (param : ForkchoiceParam)
    (attributes : Option PayloadAttributes) : Check → RequestError → Prop where
  /-- A hash is missing. -/
  | hash {pointer : Pointer} (hmissing : param.hash? pointer = none) :
      Fails v schedule param attributes (.hash pointer) (.missingHash pointer)
  /-- An attribute is missing that the version requires. -/
  | required {a : PayloadAttributes} {field : AttributeField} (ha : attributes = some a)
      (hrequired : field ∈ v.requiredAttributes) (hmissing : ¬ field.IsPresent a) :
      Fails v schedule param attributes (.required field) (.missingAttribute field)
  /-- The schedule has no milestone for the fork of the version. -/
  | notScheduled {a : PayloadAttributes} {fork : Hardfork} (ha : attributes = some a)
      (hfork : v.requiredFork = some fork)
      (hmissing : ∀ m ∈ schedule.milestones, ¬ SameName m.name fork.name) :
      Fails v schedule param attributes .fork (.forkNotScheduled fork)
  /-- The milestone of the fork is later than the payload. -/
  | notActive {a : PayloadAttributes} {fork : Hardfork} {m : Milestone} (ha : attributes = some a)
      (hfork : v.requiredFork = some fork) (hm : schedule.milestoneFor? fork.name = some m)
      (hlater : a.timestamp < m.timestamp) :
      Fails v schedule param attributes .fork (.forkNotActive fork m.timestamp)

/-- It is the reason of the first check that the request fails. -/
def FirstFailure (v : Version) (schedule : Schedule) (param : ForkchoiceParam)
    (attributes : Option PayloadAttributes) (reason : RequestError) : Prop :=
  ∃ before check after, all = before ++ check :: after ∧
    check.Fails v schedule param attributes reason ∧
      ∀ other ∈ before, ∀ reason, ¬ other.Fails v schedule param attributes reason

/-- A failed check is reported as an error of its kind. -/
lemma Fails.kind_eq (h : check.Fails v schedule param attributes reason) :
    reason.kind = check.kind := by
  cases h <;> rfl

/-! ## Checks as functions

Each check gives at most one reason, so the checks of a list can be tried one after the other. -/

/-- What the fork of a version speaks against, at a time. -/
def forkFault? (v : Version) (schedule : Schedule) (time : UInt64) : Option RequestError :=
  v.requiredFork.bind fun fork =>
    match schedule.milestoneFor? fork.name with
    | none => some (.forkNotScheduled fork)
    | some m => if m.timestamp ≤ time then none else some (.forkNotActive fork m.timestamp)

/-- The reason for which a request fails a check, if it does. -/
def fault? (v : Version) (schedule : Schedule) (param : ForkchoiceParam)
    (attributes : Option PayloadAttributes) : Check → Option RequestError
  | .hash pointer => if param.hash? pointer = none then some (.missingHash pointer) else none
  | .required field => attributes.bind fun a =>
    if field ∈ v.requiredAttributes ∧ ¬ field.IsPresent a then some (.missingAttribute field)
    else none
  | .fork => attributes.bind fun a => forkFault? v schedule a.timestamp

lemma milestoneFor?_eq_none_iff {name : String} :
    schedule.milestoneFor? name = none ↔ ∀ m ∈ schedule.milestones, ¬ SameName m.name name := by
  simp [Schedule.milestoneFor?]

lemma forkFault?_eq_some_iff {time : UInt64} :
    forkFault? v schedule time = some reason ↔ ∃ fork, v.requiredFork = some fork ∧
      (reason = .forkNotScheduled fork ∧ schedule.milestoneFor? fork.name = none ∨
        ∃ m, reason = .forkNotActive fork m.timestamp ∧
          schedule.milestoneFor? fork.name = some m ∧ time < m.timestamp) := by
  rw [forkFault?, Option.bind_eq_some_iff]
  refine exists_congr fun fork => and_congr_right fun _ => ?_
  cases hm : schedule.milestoneFor? fork.name with
  | none => simp [eq_comm]
  | some m =>
    by_cases htime : m.timestamp ≤ time
    · simp [htime]
    · simp [htime, UInt64.not_le.1 htime, eq_comm]

lemma fails_iff :
    check.Fails v schedule param attributes reason ↔
      check.fault? v schedule param attributes = some reason := by
  constructor
  · rintro (hmissing | ⟨rfl, hrequired, hmissing⟩ | ⟨rfl, hfork, hmissing⟩ |
      ⟨rfl, hfork, hm, hlater⟩)
    · exact if_pos hmissing
    · exact if_pos ⟨hrequired, hmissing⟩
    · exact forkFault?_eq_some_iff.2
        ⟨_, hfork, .inl ⟨rfl, milestoneFor?_eq_none_iff.2 hmissing⟩⟩
    · exact forkFault?_eq_some_iff.2 ⟨_, hfork, .inr ⟨_, rfl, hm, hlater⟩⟩
  · intro h
    cases check with
    | hash pointer =>
      obtain ⟨hmissing, ⟨⟩⟩ := Option.ite_none_right_eq_some.1 h
      exact .hash hmissing
    | required field =>
      obtain ⟨a, rfl, h⟩ := Option.bind_eq_some_iff.1 h
      obtain ⟨⟨hrequired, hmissing⟩, ⟨⟩⟩ := Option.ite_none_right_eq_some.1 h
      exact .required rfl hrequired hmissing
    | fork =>
      obtain ⟨a, rfl, h⟩ := Option.bind_eq_some_iff.1 h
      obtain ⟨fork, hfork, ⟨rfl, hnone⟩ | ⟨m, rfl, hm, hlater⟩⟩ := forkFault?_eq_some_iff.1 h
      · exact .notScheduled rfl hfork (milestoneFor?_eq_none_iff.1 hnone)
      · exact .notActive rfl hfork hm hlater

lemma firstFailure_iff :
    FirstFailure v schedule param attributes reason ↔
      all.findSome? (fault? v schedule param attributes) = some reason := by
  rw [List.findSome?_eq_some_iff, FirstFailure]
  simp only [fails_iff, Option.eq_none_iff_forall_ne_some, ne_eq]

/-- A request that fails no other check is refused for the fork. -/
lemma firstFailure_fork {a : PayloadAttributes}
    (hothers : ∀ check ∈ all, check ≠ .fork → check.fault? v schedule param (some a) = none)
    (hfork : forkFault? v schedule a.timestamp = some reason) :
    FirstFailure v schedule param (some a) reason := by
  rw [firstFailure_iff, List.findSome?_eq_some_iff]
  refine ⟨all.dropLast, .fork, [], rfl, hfork, fun check hcheck => ?_⟩
  exact hothers check (List.dropLast_subset all hcheck)
    (ne_of_mem_of_not_mem hcheck (by decide))

end Check

/-! ## Validation tries the checks in their order -/

/-- The step fails for the reason of the first of the checks that fails. -/
def Tries (v : Version) (schedule : Schedule) (param : ForkchoiceParam)
    (attributes : Option PayloadAttributes) (checks : List Check) {α : Type}
    (x : Except RequestError α) : Prop :=
  ∀ reason, x = .error reason ↔
    checks.findSome? (Check.fault? v schedule param attributes) = some reason

section Tries

variable {v : Version} {schedule : Schedule} {param : ForkchoiceParam}
  {attributes : Option PayloadAttributes} {a : PayloadAttributes} {time : UInt64}

lemma tries_ok {α : Type} {checks : List Check}
    (h : checks.findSome? (Check.fault? v schedule param attributes) = none) (a : α) :
    Tries v schedule param attributes checks (.ok a) := by
  intro reason
  rw [h]
  exact iff_of_false nofun nofun

/-- Of two steps the checks of the first one come first. -/
lemma Tries.bind {α β : Type} {x : Except RequestError α} {f : α → Except RequestError β}
    {checks checks' : List Check} (hx : Tries v schedule param attributes checks x)
    (hf : ∀ a, Tries v schedule param attributes checks' (f a)) :
    Tries v schedule param attributes (checks ++ checks') (x >>= f) := by
  intro reason
  rw [List.findSome?_append]
  cases x with
  | error other =>
    rw [(hx other).1 rfl, Option.some_or, Option.some.injEq]
    exact iff_of_eq (Except.error.injEq other reason)
  | ok a =>
    have hnone : checks.findSome? (Check.fault? v schedule param attributes) = none :=
      Option.eq_none_iff_forall_ne_some.2 fun reason h => nomatch (hx reason).2 h
    rw [hnone, Option.none_or]
    exact hf a reason

lemma tries_require (pointer : Pointer) : Tries v schedule param attributes [.hash pointer]
    (ForkchoiceParam.require pointer (param.hash? pointer)) := by
  intro reason
  cases hhash : param.hash? pointer <;> simp [ForkchoiceParam.require, Check.fault?, hhash]

lemma tries_paramValidate : Tries v schedule param attributes
    [.hash .head, .hash .safe, .hash .finalized] param.validate :=
  (tries_require .head).bind fun _ => (tries_require .safe).bind fun _ =>
    (tries_require .finalized).bind fun _ => tries_ok rfl _

lemma tries_validateAttributes : Tries v schedule param (some a)
    [.required .withdrawals, .required .parentBeaconBlockRoot] (v.validateAttributes a) := by
  intro reason
  by_cases hw : AttributeField.withdrawals.IsPresent a <;>
    by_cases hr : AttributeField.parentBeaconBlockRoot.IsPresent a <;> cases v <;>
      simp [Version.validateAttributes, Version.requiredAttributes, Check.fault?, hw, hr]

lemma tries_validateFork : Tries v schedule param (some a) [.fork]
    (v.validateFork schedule a.timestamp) := by
  intro reason
  simp only [List.findSome?_singleton, Check.fault?, Option.bind_some, Version.validateFork,
    Check.forkFault?]
  cases v.requiredFork with
  | none => exact iff_of_false nofun nofun
  | some fork =>
    simp only [Option.bind_some]
    cases schedule.milestoneFor? fork.name with
    | none => simp
    | some m => by_cases htime : m.timestamp ≤ a.timestamp <;> simp [htime]

/-- A request is refused for the first check that it fails. -/
lemma tries_validate : Tries v schedule param attributes Check.all
    (v.validate schedule param attributes) := by
  cases attributes with
  | none =>
    -- without attributes there is nothing to require, and no time to ask about
    have hnone : [.required .withdrawals, .required .parentBeaconBlockRoot, .fork].findSome?
        (Check.fault? v schedule param none) = none := rfl
    exact tries_paramValidate.bind fun state => tries_ok hnone state
  | some a =>
    exact tries_paramValidate.bind fun _ => tries_validateAttributes.bind fun _ =>
      tries_validateFork.bind fun _ => tries_ok rfl _

end Tries

namespace Version

variable {v : Version} {schedule : Schedule} {param : ForkchoiceParam}
  {attributes : Option PayloadAttributes} {state : ForkchoiceState} {reason : RequestError}
  {a : PayloadAttributes} {time : UInt64}

lemma validateAttributes_eq_ok_iff :
    v.validateAttributes a = .ok () ↔ ∀ field ∈ v.requiredAttributes, field.IsPresent a := by
  have hfind : v.requiredAttributes.find? (fun field => ¬ field.IsPresent a) = none ↔
      ∀ field ∈ v.requiredAttributes, field.IsPresent a := by simp
  rw [← hfind, validateAttributes]
  cases v.requiredAttributes.find? fun field => ¬ field.IsPresent a with
  | none => exact iff_of_true rfl rfl
  | some field => exact iff_of_false nofun nofun

/-- A fork is active if its milestone is found and its time has come. -/
lemma isActive_eq_true_iff {name : String} :
    schedule.isActive name time = true ↔
      ∃ m, schedule.milestoneFor? name = some m ∧ m.timestamp ≤ time := by
  unfold Schedule.isActive
  cases schedule.milestoneFor? name with
  | none => exact iff_of_false nofun nofun
  | some m => simp

/-- The check of the fork agrees with the schedule on whether the fork is active. -/
lemma validateFork_eq_ok_iff :
    v.validateFork schedule time = .ok () ↔
      ∀ fork ∈ v.requiredFork, schedule.isActive fork.name time = true := by
  unfold validateFork
  cases v.requiredFork with
  | none => exact iff_of_true rfl nofun
  | some fork =>
    simp only [Option.mem_some, forall_eq', isActive_eq_true_iff]
    cases schedule.milestoneFor? fork.name with
    | none => exact iff_of_false nofun nofun
    | some m => by_cases htime : m.timestamp ≤ time <;> simp [htime]

lemma validateFork_mono {time' : UInt64} (hle : time ≤ time')
    (h : v.validateFork schedule time = .ok ()) : v.validateFork schedule time' = .ok () := by
  rw [validateFork_eq_ok_iff] at h ⊢
  intro fork hfork
  obtain ⟨m, hm, htime⟩ := isActive_eq_true_iff.1 (h fork hfork)
  exact isActive_eq_true_iff.2 ⟨m, hm, UInt64.le_trans htime hle⟩

/-- The three hashes are there. -/
lemma exists_toParam_iff :
    (∃ state, param = ForkchoiceState.toParam state) ↔ ∀ pointer, (param.hash? pointer).isSome := by
  constructor
  · rintro ⟨state, rfl⟩ pointer
    cases pointer <;> rfl
  · intro h
    obtain ⟨head, hhead⟩ := Option.isSome_iff_exists.1 (h .head)
    obtain ⟨safe, hsafe⟩ := Option.isSome_iff_exists.1 (h .safe)
    obtain ⟨finalized, hfinalized⟩ := Option.isSome_iff_exists.1 (h .finalized)
    cases param
    cases hhead
    cases hsafe
    cases hfinalized
    exact ⟨⟨head, safe, finalized⟩, rfl⟩

/-- A fork that is not scheduled is not reported as one that is scheduled for later. -/
lemma message_forkNotScheduled_ne (fork fork' : Hardfork) (start : UInt64) :
    (RequestError.forkNotScheduled fork).message ≠
      (RequestError.forkNotActive fork' start).message := by
  have hscheduled : (RequestError.forkNotScheduled fork).message.toList =
      "Configuration error, no schedule for ".toList ++ (fork.name ++ " fork set").toList := by
    rw [← String.toList_append, ← String.append_assoc]
    rfl
  have hactive : (RequestError.forkNotActive fork' start).message.toList =
      fork'.name.toList ++
        (" configured to start at timestamp: " ++ toString start.toNat).toList := by
    rw [← String.toList_append, ← String.append_assoc]
    rfl
  have hword : "Configuration error, no schedule for ".toList =
      'C' :: 'o' :: "nfiguration error, no schedule for ".toList := rfl
  intro h
  have hchars := congrArg String.toList h
  rw [hscheduled, hactive, hword] at hchars
  -- no fork has the first two letters of the other wording
  cases fork' with
  | paris => exact absurd (List.cons.inj hchars).1 (by decide)
  | shanghai => exact absurd (List.cons.inj hchars).1 (by decide)
  | cancun => exact absurd (List.cons.inj (List.cons.inj hchars).2).1 (by decide)
  | prague => exact absurd (List.cons.inj hchars).1 (by decide)

/-- The version passes requests as its checks say, under that schedule. -/
structure Screens (v : Version) (schedule : Schedule) : Prop where
  /-- A request passes if its hashes are there and its attributes, if it has any, hold what the
  version requires and are of a time at which the fork of the version is active. -/
  ok_iff : ∀ param attributes, (∃ state, v.validate schedule param attributes = .ok state) ↔
    (∀ pointer, (param.hash? pointer).isSome) ∧ ∀ a ∈ attributes,
      (∀ field ∈ v.requiredAttributes, field.IsPresent a) ∧
        ∀ fork ∈ v.requiredFork, schedule.isActive fork.name a.timestamp = true
  /-- One that passes is the fork choice that it came as. -/
  eq_toParam : ∀ param attributes state, v.validate schedule param attributes = .ok state →
    param = state.toParam
  /-- Any other is refused for the first check that it fails. -/
  error_iff : ∀ param attributes reason, v.validate schedule param attributes = .error reason ↔
    Check.FirstFailure v schedule param attributes reason
  /-- A check that fails is told as an error of its kind. -/
  kind_eq : ∀ param attributes check reason, Check.Fails v schedule param attributes check reason →
    reason.kind = check.kind
  /-- A fork without milestone is told apart from one whose milestone is later. -/
  message_ne : ∀ fork fork' start, (RequestError.forkNotScheduled fork).message ≠
    (RequestError.forkNotActive fork' start).message
  /-- The first version passes it as well. -/
  v1 : ∀ param attributes state, v.validate schedule param attributes = .ok state →
    Version.v1.validate schedule param attributes = .ok state
  /-- It would pass for any later payload. -/
  later : ∀ param (a : PayloadAttributes) state time, a.timestamp ≤ time →
    v.validate schedule param (some a) = .ok state →
      v.validate schedule param (some { a with timestamp := time }) = .ok state

/-- Every version, under every schedule, passes and refuses requests as its checks say. -/
theorem validate_screens (v : Version) (schedule : Schedule) : v.Screens schedule where
  ok_iff param attributes := by
    simp only [validate_eq_ok_iff, validateAttributes_eq_ok_iff, validateFork_eq_ok_iff,
      exists_and_right, exists_toParam_iff]
  eq_toParam param attributes state h := (validate_eq_ok_iff.1 h).1
  error_iff param attributes reason := by
    rw [Check.firstFailure_iff]
    exact tries_validate reason
  kind_eq _ _ _ _ h := h.kind_eq
  message_ne := message_forkNotScheduled_ne
  v1 param attributes state h :=
    validate_eq_ok_iff.2 ⟨(validate_eq_ok_iff.1 h).1, fun _ _ => ⟨rfl, rfl⟩⟩
  later param a state time hle h := by
    obtain ⟨hparam, ha⟩ := validate_eq_ok_iff.1 h
    obtain ⟨hattributes, hfork⟩ := ha a rfl
    refine validate_eq_ok_iff.2 ⟨hparam, ?_⟩
    rintro _ ⟨⟩
    exact ⟨hattributes, validateFork_mono hle hfork⟩

/-- A fork choice with all of its hashes. -/
def wholeChoice : ForkchoiceParam := ⟨some (.zero 32), some (.zero 32), some (.zero 32)⟩

/-- Attributes of that time, with those of the fields that only some versions require. -/
def attributesAt (time : UInt64) (fields : List AttributeField) : PayloadAttributes where
  timestamp := time
  prevRandao := .zero 32
  suggestedFeeRecipient := .zero 20
  withdrawals := if .withdrawals ∈ fields then some [] else none
  parentBeaconBlockRoot := if .parentBeaconBlockRoot ∈ fields then some (.zero 32) else none

/-- The first version requires nothing, the second withdrawals and Shanghai, the third a root as
well and Cancun, each from the second on which its fork is active on the main network. -/
theorem validate_screens_mainnet :
    (∃ state, v1.validate .empty wholeChoice (some (attributesAt 0 [])) = .ok state) ∧
    (v2.validate .mainnet wholeChoice (some (attributesAt 1681338455 [])) =
        .error (.missingAttribute .withdrawals) ∧
      v2.validate .empty wholeChoice (some (attributesAt 1681338455 [.withdrawals])) =
        .error (.forkNotScheduled .shanghai) ∧
      v2.validate .mainnet wholeChoice (some (attributesAt 1681338454 [.withdrawals])) =
        .error (.forkNotActive .shanghai 1681338455) ∧
      ∃ state, v2.validate .mainnet wholeChoice
        (some (attributesAt 1681338455 [.withdrawals])) = .ok state) ∧
    v3.validate .mainnet wholeChoice
        (some (attributesAt 1710338135 [.parentBeaconBlockRoot])) =
      .error (.missingAttribute .withdrawals) ∧
    v3.validate .mainnet wholeChoice (some (attributesAt 1710338135 [.withdrawals])) =
      .error (.missingAttribute .parentBeaconBlockRoot) ∧
    v3.validate .empty wholeChoice
        (some (attributesAt 1710338135 [.withdrawals, .parentBeaconBlockRoot])) =
      .error (.forkNotScheduled .cancun) ∧
    v3.validate .mainnet wholeChoice
        (some (attributesAt 1710338134 [.withdrawals, .parentBeaconBlockRoot])) =
      .error (.forkNotActive .cancun 1710338135) ∧
    ∃ state, v3.validate .mainnet wholeChoice
      (some (attributesAt 1710338135 [.withdrawals, .parentBeaconBlockRoot])) = .ok state := by
  have hshanghai : Schedule.mainnet.milestoneFor? "Shanghai" = some ⟨"Shanghai", 1681338455⟩ := by
    rw [Schedule.mainnet, Schedule.milestoneFor?_ofList]
    decide +kernel
  have hcancun : Schedule.mainnet.milestoneFor? "Cancun" = some ⟨"Cancun", 1710338135⟩ := by
    rw [Schedule.mainnet, Schedule.milestoneFor?_ofList]
    decide +kernel
  have hhashes : ∀ pointer, (wholeChoice.hash? pointer).isSome := by rintro (_ | _ | _) <;> rfl
  have hv2 := validate_screens .v2 .mainnet
  have hv3 := validate_screens .v3 .mainnet
  refine ⟨?_, ⟨?_, ?_, ?_, ?_⟩, ?_, ?_, ?_, ?_, ?_⟩
  · refine ((validate_screens .v1 .empty).ok_iff _ _).2 ⟨hhashes, ?_⟩
    rintro _ ⟨⟩
    exact ⟨nofun, nofun⟩
  · exact (hv2.error_iff _ _ _).2 (Check.firstFailure_iff.2 rfl)
  · exact ((validate_screens .v2 .empty).error_iff _ _ _).2 (Check.firstFailure_iff.2 rfl)
  · refine (hv2.error_iff _ _ _).2 (Check.firstFailure_fork (by decide) ?_)
    exact Check.forkFault?_eq_some_iff.2 ⟨_, rfl, .inr ⟨_, rfl, hshanghai, by decide⟩⟩
  · refine (hv2.ok_iff _ _).2 ⟨hhashes, ?_⟩
    rintro _ ⟨⟩
    refine ⟨by decide, ?_⟩
    rintro _ ⟨⟩
    exact isActive_eq_true_iff.2 ⟨_, hshanghai, by decide⟩
  · exact (hv3.error_iff _ _ _).2 (Check.firstFailure_iff.2 rfl)
  · exact (hv3.error_iff _ _ _).2 (Check.firstFailure_iff.2 rfl)
  · exact ((validate_screens .v3 .empty).error_iff _ _ _).2 (Check.firstFailure_iff.2 rfl)
  · refine (hv3.error_iff _ _ _).2 (Check.firstFailure_fork (by decide) ?_)
    exact Check.forkFault?_eq_some_iff.2 ⟨_, rfl, .inr ⟨_, rfl, hcancun, by decide⟩⟩
  · refine (hv3.ok_iff _ _).2 ⟨hhashes, ?_⟩
    rintro _ ⟨⟩
    refine ⟨by decide, ?_⟩
    rintro _ ⟨⟩
    exact isActive_eq_true_iff.2 ⟨_, hcancun, by decide⟩

end Version

end ChainHead
