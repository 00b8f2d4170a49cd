import ChainHead.Block
import ChainHead.Failure
import ChainHead.Log.Level
import ChainHead.Resolution
import ChainHead.Text.Quoted

/-!
# What the engine logs

Each thing that the engine and its payload jobs report is a `Notice`.  Its line is the name of its
level, its message, and its fields as `key=value`.  How a payload id is written is left to the
caller, who may know the ids by other names.
-/

namespace ChainHead.Log

/-- A report of the engine or of a payload job. -/
inductive Notice where
  /-- A fork choice names a block that is not known. -/
  | blockUnknown (pointer : Pointer) (version : Version)
  /-- A fork choice is refused. -/
  | refused (refusal : Refusal) (head : Hash)
  /-- A fork choice could not be judged. -/
  | failed (fault : Fault) (head : Hash)
  /-- The pointers moved. -/
  | moved (heads : Heads)
  /-- Another head was there before a payload job could be started. -/
  | headReplaced (head : Hash)
  /-- No payload job could be started. -/
  | buildNotStarted (fault : Fault) (head : Hash)
  /-- A payload job was started. -/
  | started (id : PayloadId) (parent : Hash)
  /-- A payload job gave way to one on the same parent. -/
  | superseded (id : PayloadId)
  /-- A payload job gave way because there were too many. -/
  | evicted (id : PayloadId)
  /-- A payload job found that its parent is not the head any more. -/
  | parentReplaced (id : PayloadId)
  /-- An attempt of a payload job failed. -/
  | attemptFailed (id : PayloadId)
  /-- A payload job ended. -/
  | done (id : PayloadId) (iterations : Nat)
  /-- The consensus client told which methods it knows. -/
  | clientCapabilities (methods : List String)
deriving DecidableEq

/-- The value of a field of a notice. -/
inductive Notice.Value where
  /-- The id of a payload job. -/
  | id (jobId : PayloadId)
  /-- A text. -/
  | text (s : String)

namespace Notice

/-- The level of a notice. -/
def level : Notice → Level
  | blockUnknown _ _ => .debug
  | refused _ _ => .warn
  | failed _ _ => .error
  | moved _ => .info
  | headReplaced _ => .debug
  | buildNotStarted _ _ => .warn
  | started _ _ => .info
  | superseded _ => .debug
  | evicted _ => .debug
  | parentReplaced _ => .debug
  | attemptFailed _ => .warn
  | done _ _ => .debug
  | clientCapabilities _ => .debug

/-- The message of a notice. -/
def message : Notice → String
  | blockUnknown pointer _ => s!"{pointer.name} block unknown, syncing"
  | refused refusal _ => s!"invalid fork choice: {refusal.message}"
  | failed fault _ => s!"fork choice failed: {fault.message}"
  | moved _ => "updated fork choice"
  | headReplaced _ => "head replaced before build start"
  | buildNotStarted fault _ => s!"failed to start payload build: {fault.message}"
  | started _ _ => "started payload job"
  | superseded _ => "superseded payload job"
  | evicted _ => "evicted payload job"
  | parentReplaced _ => "parent no longer canonical head"
  | attemptFailed _ => "payload build failed: no transactions available"
  | done _ _ => "payload job done"
  | clientCapabilities methods => s!"consensus client capabilities: {Text.quotedList methods}"

/-- The fields of a notice. -/
def fields : Notice → List (String × Value)
  | blockUnknown _ version => [("method", .text version.updateMethod)]
  | refused _ head => [("head", .text head.text)]
  | failed _ head => [("head", .text head.text)]
  | moved heads => [
      ("head", .text heads.head.hash.text),
      ("number", .text (toString heads.head.number.toNat)),
      ("safe", .text heads.safeHash.text),
      ("finalized", .text heads.finalizedHash.text)]
  | headReplaced head => [("head", .text head.text)]
  | buildNotStarted _ head => [("head", .text head.text)]
  | started id parent => [("id", .id id), ("parent", .text parent.text)]
  | superseded id => [("id", .id id)]
  | evicted id => [("id", .id id)]
  | parentReplaced id => [("id", .id id)]
  | attemptFailed id => [("id", .id id)]
  | done id iterations => [("id", .id id), ("iterations", .text (toString iterations))]
  | clientCapabilities _ => []

/-- The text of the value of a field. -/
def Value.shown (idText : PayloadId → String) : Value → String
  | .id jobId => idText jobId
  | .text s => s

/-- The line of a notice. -/
def line (idText : PayloadId → String) (n : Notice) : String :=
  let fields := n.fields.map fun (key, value) => s!" {key}={value.shown idText}"
  s!"{n.level.name} {n.message}{String.join fields}"

end Notice

end ChainHead.Log
