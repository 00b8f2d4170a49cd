import ChainHead.Payload.Attributes
import ChainHead.Schedule

/-!
# Fork choice requests

The consensus client names a head, a safe and a finalized block, and may ask for a payload on the
head.  The versions of the method differ only in the attributes they require and in the fork that
has to be active at the time of the payload.

`Version.validate` checks a request before any block is looked up.  The checks run in a fixed
order and the first that fails is reported: the three hashes, the attributes that the version
requires, the fork.
-/

namespace ChainHead

/-- A fork choice as it arrives, in which any hash may be missing. -/
structure ForkchoiceParam where
  /-- The block that is to be the head. -/
  headBlockHash : Option Hash
  /-- The block that is to be safe, zero for none. -/
  safeBlockHash : Option Hash
  /-- The block that is to be finalized, zero for none. -/
  finalizedBlockHash : Option Hash
deriving DecidableEq

/-- A complete fork choice. -/
structure ForkchoiceState where
  /-- The block that is to be the head. -/
  headBlockHash : Hash
  /-- The block that is to be safe, zero for none. -/
  safeBlockHash : Hash
  /-- The block that is to be finalized, zero for none. -/
  finalizedBlockHash : Hash
deriving DecidableEq

namespace ForkchoiceParam

/-- How a fork choice is read as it arrives. -/
def form : Json.Form ForkchoiceParam :=
  ForkchoiceParam.mk <$> .optional "headBlockHash" (Json.readBytes 32)
    <*> .optional "safeBlockHash" (Json.readBytes 32)
    <*> .optional "finalizedBlockHash" (Json.readBytes 32)

/-- The JSON value of a fork choice as it arrives. -/
def toJson (s : ForkchoiceParam) : Json := .obj [
  ("headBlockHash", Json.ofOption Json.ofBytes s.headBlockHash),
  ("safeBlockHash", Json.ofOption Json.ofBytes s.safeBlockHash),
  ("finalizedBlockHash", Json.ofOption Json.ofBytes s.finalizedBlockHash)]

end ForkchoiceParam

namespace ForkchoiceState

/-- The fork choice as it would arrive. -/
def toParam (s : ForkchoiceState) : ForkchoiceParam :=
  ⟨some s.headBlockHash, some s.safeBlockHash, some s.finalizedBlockHash⟩

/-- How a complete fork choice is read. -/
def form : Json.Form ForkchoiceState :=
  ForkchoiceState.mk <$> .required "headBlockHash" (Json.readBytes 32)
    <*> .required "safeBlockHash" (Json.readBytes 32)
    <*> .required "finalizedBlockHash" (Json.readBytes 32)

/-- The JSON value of a complete fork choice. -/
def toJson (s : ForkchoiceState) : Json := .obj [
  ("headBlockHash", Json.ofBytes s.headBlockHash),
  ("safeBlockHash", Json.ofBytes s.safeBlockHash),
  ("finalizedBlockHash", Json.ofBytes s.finalizedBlockHash)]

end ForkchoiceState

/-! ## Errors -/

/-- The three blocks that a fork choice names. -/
inductive Pointer where
  /-- The tip of the chain. -/
  | head
  /-- The safe block. -/
  | safe
  /-- The finalized block. -/
  | finalized
deriving DecidableEq

/-- The word for the pointer in messages and answers. -/
def Pointer.name : Pointer → String
  | head => "head"
  | safe => "safe"
  | finalized => "finalized"

/-- Payload attributes that only some versions require. -/
inductive AttributeField where
  /-- The withdrawals. -/
  | withdrawals
  /-- The root of the parent beacon block. -/
  | parentBeaconBlockRoot
deriving DecidableEq

namespace AttributeField

/-- Whether attributes hold the field. -/
def IsPresent (field : AttributeField) (a : PayloadAttributes) : Prop :=
  match field with
  | withdrawals => a.withdrawals.isSome
  | parentBeaconBlockRoot => a.parentBeaconBlockRoot.isSome

instance (field : AttributeField) (a : PayloadAttributes) : Decidable (field.IsPresent a) := by
  cases field <;> unfold IsPresent <;> infer_instance

/-- The words for the field in a message. -/
def words : AttributeField → String
  | withdrawals => "withdrawals"
  | parentBeaconBlockRoot => "parent beacon block root"

/-- What is said when the field is missing. -/
def missingMessage (field : AttributeField) : String := s!"Missing {field.words}"

end AttributeField

/-- Why a request is refused.  A fork choice that the chain refuses is no error: it is answered
with a status. -/
inductive RequestError where
  /-- A block hash is missing. -/
  | missingHash (pointer : Pointer)
  /-- An attribute is missing that the version requires. -/
  | missingAttribute (field : AttributeField)
  /-- The fork of the version is not active yet. -/
  | forkNotActive (fork : Hardfork) (start : UInt64)
  /-- The fork of the version is not scheduled. -/
  | forkNotScheduled (fork : Hardfork)
  /-- The payload would not be later than the head. -/
  | attributesNotAfterHead (attributes head : UInt64)
  /-- There is no payload of that name. -/
  | unknownPayload
deriving DecidableEq

/-- The kinds of errors that the consensus client can tell apart. -/
inductive RequestError.Kind where
  /-- A parameter is missing. -/
  | invalidParams
  /-- There is no such payload. -/
  | unknownPayload
  /-- The fork choice was applied, but no payload can be built. -/
  | invalidPayloadAttributes
  /-- The version does not fit the time of the payload. -/
  | unsupportedFork
deriving DecidableEq

namespace RequestError

/-- The name of a kind of errors. -/
def Kind.name : Kind → String
  | invalidParams => "INVALID_PARAMS"
  | unknownPayload => "UNKNOWN_PAYLOAD"
  | invalidPayloadAttributes => "INVALID_PAYLOAD_ATTRIBUTES"
  | unsupportedFork => "UNSUPPORTED_FORK"

/-- The number of a kind of errors on the wire. -/
def Kind.code : Kind → Int
  | invalidParams => -32602
  | unknownPayload => -38001
  | invalidPayloadAttributes => -38003
  | unsupportedFork => -38005

/-- All kinds of errors. -/
def Kind.all : List Kind :=
  [invalidParams, unknownPayload, invalidPayloadAttributes, unsupportedFork]

/-- The kind of an error. -/
def kind : RequestError → Kind
  | missingHash _ => .invalidParams
  | missingAttribute _ => .invalidParams
  | forkNotActive _ _ => .unsupportedFork
  | forkNotScheduled _ => .unsupportedFork
  | attributesNotAfterHead _ _ => .invalidPayloadAttributes
  | unknownPayload => .unknownPayload

/-- The wording of an error. -/
def message : RequestError → String
  | missingHash pointer => s!"Missing {pointer.name} block hash"
  | missingAttribute field => field.missingMessage
  | forkNotActive fork start => s!"{fork.name} configured to start at timestamp: {start.toNat}"
  | forkNotScheduled fork => s!"Configuration error, no schedule for {fork.name} fork set"
  | attributesNotAfterHead attributes head =>
    s!"Invalid payload attributes: timestamp {attributes.toNat} is not after head timestamp {head.toNat}"
  | unknownPayload => "Unknown payload"

end RequestError

/-! ## Versions -/

/-- A version of the fork choice method. -/
inductive Version where
  /-- The version of the change to proof of stake. -/
  | v1
  /-- The version with withdrawals. -/
  | v2
  /-- The version with the root of the parent beacon block. -/
  | v3
deriving DecidableEq

namespace Version

/-- All versions. -/
def all : List Version := [v1, v2, v3]

/-- The number of the version. -/
def number : Version → Nat
  | v1 => 1
  | v2 => 2
  | v3 => 3

/-- The name of the fork choice method of the version. -/
def updateMethod (v : Version) : String := s!"engine_forkchoiceUpdatedV{v.number}"

/-- The name of the method that fetches payloads of the version. -/
def payloadMethod (v : Version) : String := s!"engine_getPayloadV{v.number}"

/-- The fork that has to be active at the time of the payload. -/
def requiredFork : Version → Option Hardfork
  | v1 => none
  | v2 => some .shanghai
  | v3 => some .cancun

/-- The attributes that the version requires besides those of the first, in the order in which
they are checked. -/
def requiredAttributes : Version → List AttributeField
  | v1 => []
  | v2 => [.withdrawals]
  | v3 => [.withdrawals, .parentBeaconBlockRoot]

/-- Checks that the attributes hold what the version requires. -/
def validateAttributes (v : Version) (a : PayloadAttributes) : Except RequestError Unit :=
  match v.requiredAttributes.find? fun field => ¬ field.IsPresent a with
  | some field => .error (.missingAttribute field)
  | none => .ok ()

/-- Checks that the fork of the version is active at a time. -/
def validateFork (v : Version) (schedule : Schedule) (time : UInt64) : Except RequestError Unit :=
  match v.requiredFork with
  | none => .ok ()
  | some fork =>
    match schedule.milestoneFor? fork.name with
    | some m => if m.timestamp ≤ time then .ok () else .error (.forkNotActive fork m.timestamp)
    | none => .error (.forkNotScheduled fork)

end Version

namespace ForkchoiceParam

/-- The hash, if it is there. -/
def require (pointer : Pointer) (hash : Option Hash) : Except RequestError Hash :=
  match hash with
  | some hash => .ok hash
  | none => .error (.missingHash pointer)

/-- The fork choice, if all its hashes are there. -/
def validate (p : ForkchoiceParam) : Except RequestError ForkchoiceState := do
  let head ← require .head p.headBlockHash
  let safe ← require .safe p.safeBlockHash
  let finalized ← require .finalized p.finalizedBlockHash
  return ⟨head, safe, finalized⟩

end ForkchoiceParam

namespace Version

/-- Checks a request. -/
def validate (v : Version) (schedule : Schedule) (param : ForkchoiceParam)
    (attributes : Option PayloadAttributes) : Except RequestError ForkchoiceState := do
  let state ← param.validate
  if let some a := attributes then
    v.validateAttributes a
    v.validateFork schedule a.timestamp
  return state

end Version

/-- The names of the methods that the engine offers. -/
def capabilities : List String :=
  Version.all.map Version.updateMethod ++ Version.all.map Version.payloadMethod

/-- The port on which the engine is served unless another is configured. -/
def defaultPort : Nat := 8551

end ChainHead
