import ChainHead.Json.Record

/-!
# Payload statuses

The verdict on a payload or on a fork choice.  On the wire the verdict is spread over the fields of
the record that holds it: its name stands under `status`, and the reason of an invalid verdict
beside it.

Because of that a status is read in two rounds.  The first takes the field `latestValidHash`, the
second the fields of the verdict among all that is left, and each round reports its own first
fault.  A status has no array form.
-/

namespace ChainHead

/-- A verdict on a payload or on a fork choice. -/
inductive Verdict where
  /-- It holds. -/
  | valid
  /-- It is refused, for this reason. -/
  | invalid (reason : String)
  /-- A block it depends on is not known yet. -/
  | syncing
  /-- It was taken without being looked at. -/
  | accepted
deriving DecidableEq

/-- A verdict and the last valid block it speaks about. -/
structure PayloadStatus where
  /-- The verdict. -/
  verdict : Verdict
  /-- The most recent valid block on the branch, if it is known. -/
  latestValidHash : Option Hash
deriving DecidableEq

namespace Verdict

/-- The name of the verdict. -/
def name : Verdict → String
  | valid => "VALID"
  | invalid _ => "INVALID"
  | syncing => "SYNCING"
  | accepted => "ACCEPTED"

/-- The names of the verdicts in the order of their declaration. -/
def names : List String := ["VALID", "INVALID", "SYNCING", "ACCEPTED"]

/-- The reason of an invalid verdict. -/
def reason? : Verdict → Option String
  | invalid reason => some reason
  | _ => none

/-- Reads the name of a verdict; its position among the names will do as well. -/
def readName : Json.Reading String := Json.readWith fun
  | .str s => if s ∈ names then some s else none
  | .num n => if 0 ≤ n then names[n.toNat]? else none
  | _ => none

/-- Reads the single use of a field, looking at the text from its start. -/
def readOnce {α : Type} (name : String) (read : Json.Reading α) :
    List (String × Json) → Option α → Except Json.ReadError (Option α)
  | [], found => .ok found
  | (given, j) :: rest, found =>
    if given = name then
      match found with
      | some _ => .error (.duplicateField name)
      | none => do readOnce name read rest (some (← read j))
    else readOnce name read rest found

/-- Reads the fields of a verdict. -/
def ofFields (fields : List (String × Json)) : Except Json.ReadError Verdict := do
  match ← readOnce "status" readName fields none with
  | none => .error (.missingField "status")
  | some "VALID" => return valid
  | some "SYNCING" => return syncing
  | some "ACCEPTED" => return accepted
  | some _ =>
    match ← readOnce "validationError" Json.readString fields none with
    | none => .error (.missingField "validationError")
    | some reason => return invalid reason

/-- The fields of a verdict. -/
def toFields (v : Verdict) : List (String × Json) :=
  ("status", .str v.name) :: Json.fieldIfSet "validationError" .str v.reason?

end Verdict

namespace PayloadStatus

/-- The status of a fork choice that was applied. -/
def valid (latestValidHash : Hash) : PayloadStatus := ⟨.valid, some latestValidHash⟩

/-- The status of a fork choice that was refused. -/
def invalid (latestValidHash : Option Hash) (reason : String) : PayloadStatus :=
  ⟨.invalid reason, latestValidHash⟩

/-- The status of a fork choice that cannot be judged yet. -/
def syncing : PayloadStatus := ⟨.syncing, none⟩

/-- Reads a status. -/
def read : Json.Reading PayloadStatus
  | .obj fields => do
    let hash ← Verdict.readOnce "latestValidHash" (Json.readOption (Json.readBytes 32)) fields none
    let verdict ← Verdict.ofFields fields
    return ⟨verdict, hash.join⟩
  | _ => .error .invalid

/-- The JSON value of a status. -/
def toJson (s : PayloadStatus) : Json := .obj <|
  s.verdict.toFields ++ [("latestValidHash", Json.ofOption Json.ofBytes s.latestValidHash)]

end PayloadStatus

/-- The answer to a fork choice: the status, and the payload job it started. -/
structure ForkChoiceUpdate where
  /-- The status of the fork choice. -/
  payloadStatus : PayloadStatus
  /-- The job that was started, if one was. -/
  payloadId : Option PayloadId
deriving DecidableEq

namespace ForkChoiceUpdate

/-- How an answer is read. -/
def form : Json.Form ForkChoiceUpdate :=
  ForkChoiceUpdate.mk <$> .required "payloadStatus" PayloadStatus.read
    <*> .optional "payloadId" (Json.readBytes 8)

/-- The JSON value of an answer. -/
def toJson (u : ForkChoiceUpdate) : Json := .obj [
  ("payloadStatus", u.payloadStatus.toJson),
  ("payloadId", Json.ofOption Json.ofBytes u.payloadId)]

end ForkChoiceUpdate

end ChainHead
