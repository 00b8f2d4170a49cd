import ChainHead.Build.Run
import ChainHead.Finality
import ChainHead.Metrics
import ChainHead.Payload.Status
import ChainHead.Store

/-!
# The fork choice engine

The engine holds the pointers of the chain and the coordinator of payload jobs over one store.  A
request runs in this order:

1. it is validated, and a request that fails is answered with an error and changes nothing;
2. the fork choice is judged against the store and the pointers (`Engine.apply`), and only one that
   resolves moves them, first in the store and then in memory;
3. with attributes, and with a payload later than the head, a payload job is started on the head,
   unless another request has replaced the head by then.

A fork choice that cannot be judged because the store fails is answered as invalid.  One that
overflows stops with the pointers in its hands and leaves them poisoned: they cannot be read any
more, and every further fork choice fails.
-/

namespace ChainHead

open ChainHead.Log (Notice)

/-- The pointers, the payload jobs and the store that they stand on. -/
structure Engine where
  /-- The store. -/
  store : Store
  /-- The fork schedule of the network. -/
  schedule : Schedule
  /-- The pointers. -/
  heads : Heads
  /-- Whether a request stopped while it held the pointers. -/
  poisoned : Bool := false
  /-- The payload jobs. -/
  coordinator : Coordinator
  /-- What is measured. -/
  metrics : Metrics := {}

/-- How a fork choice request ends. -/
inductive Engine.Answer where
  /-- It is answered with a status. -/
  | update (answer : ForkChoiceUpdate)
  /-- It is refused. -/
  | error (reason : RequestError)
  /-- It stops at an overflow. -/
  | overflow
deriving DecidableEq

/-- What a fork choice request gives. -/
structure Engine.Outcome where
  /-- The answer. -/
  answer : Engine.Answer
  /-- What is reported. -/
  notices : List Notice
  /-- The engine after the request. -/
  after : Engine

/-- What applying a fork choice gives. -/
structure Engine.Applied where
  /-- What the fork choice comes to. -/
  result : Except Failure Resolution
  /-- What is reported. -/
  notices : List Notice
  /-- The engine afterwards. -/
  after : Engine

namespace Engine

/-! ## Starting -/

/-- An engine that starts from the pointers in the store.  Without pointers there is none. -/
def start (store : Store) (schedule : Schedule) (coordinator : Coordinator)
    (metrics : Metrics := {}) : Except Fault Engine := do
  match ← store.heads? with
  | none => throw .noCanonicalHead
  | some heads => return { store, schedule, heads, coordinator, metrics := metrics.showHeads heads }

/-- A new engine over the store of another.  The gauges, the counters and the time go on, the jobs
do not. -/
def restart (e : Engine) (script : List BuilderAnswer) : Except Fault Engine :=
  start e.store e.schedule (e.coordinator.renew script) e.metrics

/-! ## Fork choices -/

/-- Moves the pointers, unless they are where they should be. -/
def move (e : Engine) (new : Heads) : Applied :=
  if e.heads = new then ⟨.ok (.resolved new), [], e⟩
  else
    match e.store.setHeads new with
    | .error fault => ⟨.error (.fault fault), [], e⟩
    | .ok store =>
      ⟨.ok (.resolved new), [.moved new],
        { e with store, heads := new, metrics := e.metrics.showHeads new }⟩

/-- Judges a fork choice and, if it resolves, makes it canonical. -/
def apply (e : Engine) (state : ForkchoiceState) : Applied :=
  if e.poisoned then ⟨.error (.fault .lockPoisoned), [], e⟩
  else
    match e.store.chain.judge e.heads state with
    | .ok (.resolved new) => e.move new
    | .error .overflow => ⟨.error .overflow, [], { e with poisoned := true }⟩
    | result => ⟨result, [], e⟩

/-- The status of a fork choice that could not be judged. -/
def failedStatus (fault : Fault) : PayloadStatus :=
  .invalid none s!"internal error: {fault.message}"

/-- The head as payload jobs see it. -/
def jobHead (e : Engine) : Option Hash := if e.poisoned then none else some e.heads.head.hash

/-- Whether a block is the head, as far as the pointers can be read. -/
def isHead (e : Engine) (b : Block) : Bool := e.jobHead == some b.hash

/-- Starts a payload job on the head. -/
def startOn (e : Engine) (head : Block) (a : PayloadAttributes) : Outcome :=
  let status := PayloadStatus.valid head.hash
  let started := e.coordinator.start head a
  let after := { e with coordinator := started.after }
  match started.result with
  | .ok id => ⟨.update ⟨status, some id⟩, started.notices, after⟩
  | .error fault =>
    ⟨.update ⟨status, none⟩, started.notices ++ [.buildNotStarted fault head.hash], after⟩

/-- Starts a payload job on the head if attributes ask for one and the head was not replaced. -/
def buildOn (e : Engine) (head : Block) (attributes : Option PayloadAttributes) : Outcome :=
  let status := PayloadStatus.valid head.hash
  match attributes with
  | none => ⟨.update ⟨status, none⟩, [], e⟩
  | some a =>
    if a.timestamp ≤ head.timestamp then
      ⟨.error (.attributesNotAfterHead a.timestamp head.timestamp), [], e⟩
    else if e.isHead head then e.startOn head a
    else ⟨.update ⟨status, none⟩, [.headReplaced head.hash], e⟩

/-- Answers a request, without counting the answer. -/
def handle (e : Engine) (v : Version) (param : ForkchoiceParam)
    (attributes : Option PayloadAttributes) : Outcome :=
  match v.validate e.schedule param attributes with
  | .error reason => ⟨.error reason, [], e⟩
  | .ok state =>
    let applied := e.apply state
    match applied.result with
    | .ok (.resolved heads) =>
      let outcome := applied.after.buildOn heads.head attributes
      { outcome with notices := applied.notices ++ outcome.notices }
    | .ok (.unknown pointer) =>
      ⟨.update ⟨.syncing, none⟩, [.blockUnknown pointer v], applied.after⟩
    | .ok (.invalid latest refusal) =>
      ⟨.update ⟨.invalid latest refusal.message, none⟩, [.refused refusal state.headBlockHash],
        applied.after⟩
    | .error (.fault fault) =>
      ⟨.update ⟨failedStatus fault, none⟩, [.failed fault state.headBlockHash], applied.after⟩
    | .error .overflow => ⟨.overflow, [], applied.after⟩

/-- The label under which an answer is counted. -/
def Answer.label? : Answer → Option String
  | .update answer => some answer.payloadStatus.verdict.name
  | .error reason => some reason.kind.name
  | .overflow => none

/-- Answers a request. -/
def forkchoiceUpdated (e : Engine) (v : Version) (param : ForkchoiceParam)
    (attributes : Option PayloadAttributes) : Outcome :=
  let outcome := e.handle v param attributes
  match outcome.answer.label? with
  | some label =>
    let metrics := outcome.after.metrics.countResponse label
    { outcome with after := { outcome.after with metrics } }
  | none => outcome

/-! ## The pointers and the jobs -/

/-- The pointers. -/
def currentHeads (e : Engine) : Except Fault Heads :=
  if e.poisoned then .error .lockPoisoned else .ok e.heads

/-- Fetches the payload of a job. -/
def getPayload (e : Engine) (id : PayloadId) : Except RequestError BuiltPayload × Engine :=
  let (payload, coordinator) := e.coordinator.retrieve e.jobHead id
  (match payload with
    | some p => .ok p
    | none => .error .unknownPayload,
   { e with coordinator })

end Engine

end ChainHead
