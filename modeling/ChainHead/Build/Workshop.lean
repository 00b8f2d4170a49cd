import ChainHead.Build.Loop

/-!
# All jobs among callers

A `Workshop` is the coordinator with the loops of all its jobs.  Its events are the steps of these
loops, the answers of the builder, calls to the coordinator, the looks of those who wait for a
payload, moves of the head and the passing of time, in any order.

The `Bench` of a job tells where its loop stands and what was done there: which orders the builder
was given, how it answered, and which payloads were published.  The `Commission` of a job is what
its start was called with.

Whatever happens to a coordinator can happen in a workshop (`ChainHead.Proofs.Build.Reflection`).
-/

namespace ChainHead

/-- What a job was started with. -/
structure Commission where
  /-- The id that was issued. -/
  id : PayloadId
  /-- The block to build on. -/
  parent : Block
  /-- What is asked of the payload. -/
  attributes : PayloadAttributes
deriving DecidableEq

/-- Where the loop of a job stands, and what was done in it. -/
structure Bench where
  /-- Where the loop stands. -/
  point : Job.Point := .atStart
  /-- The orders that the builder was called with. -/
  orders : List BuildOrder := []
  /-- How these calls ended. -/
  outcomes : List Job.Outcome := []
  /-- The payloads that were published. -/
  published : List BuiltPayload := []

/-- The phase of a job whose loop stands here. -/
def Job.Point.phase : Job.Point → Job.Phase
  | .ended => .ended
  | .crashed => .crashed
  | _ => .resting

namespace Bench

/-- The loop of the job. -/
def loop (b : Bench) (j : Job) : Job.Loop where
  job := j
  point := b.point
  calls := b.orders.length
  published := b.published.length

/-- Notes what the loop did in an event that led to a point. -/
def note (b : Bench) (j : Job) (event : Job.Loop.Event) (point : Job.Point) : Bench :=
  match b.point, event with
  | .atCall, .work _ _ => { b with point, orders := b.orders ++ [j.order] }
  | .inCall, .answer outcome => { b with point, outcomes := b.outcomes ++ [outcome] }
  | .atPublish p, .work _ _ => { b with point, published := b.published ++ [p] }
  | _, _ => { b with point }

end Bench

/-- The coordinator with the loops of its jobs. -/
structure Workshop where
  /-- The coordinator. -/
  coordinator : Coordinator
  /-- The head of the chain. -/
  head : Option Hash
  /-- The benches of the jobs by number. -/
  benches : List Bench := []
  /-- What the jobs were started with, by number. -/
  commissions : List Commission := []

namespace Workshop

/-- What may happen. -/
inductive Event where
  /-- The loop of a job takes its next step. -/
  | work (job : Nat)
  /-- The builder answers the call of a job. -/
  | answer (job : Nat) (outcome : Job.Outcome)
  /-- A job is started, unless the id is taken. -/
  | start (id : PayloadId) (parent : Block) (attributes : PayloadAttributes)
  /-- A job is cancelled. -/
  | cancel (id : PayloadId)
  /-- The payload of a job is asked for. -/
  | retrieve (id : PayloadId)
  /-- A request looks whether it can be answered. -/
  | look (fetch : Nat)
  /-- The head moves. -/
  | move (head : Option Hash)
  /-- Time passes. -/
  | pass (ms : Nat)

/-- The workshop after an event of the loop of a job. -/
def stepLoop (w : Workshop) (k : Nat) (event : Job.Loop.Event) : Workshop :=
  match w.coordinator.jobs[k]?, w.benches[k]? with
  | some j, some b =>
    let l := (b.loop j).step w.coordinator.timing event
    { w with
      coordinator := w.coordinator.modifyJob k fun _ => { l.job with phase := l.point.phase }
      benches := w.benches.set k (b.note j event l.point) }
  | _, _ => w

/-- The workshop with another coordinator. -/
def withCoordinator (w : Workshop) (coordinator : Coordinator) : Workshop := { w with coordinator }

/-- The coordinator after a call to fetch a payload.  The request waits for the job that has the id
now, and that job is told. -/
def requested (c : Coordinator) (id : PayloadId) : Coordinator :=
  match c.lookup? id with
  | some job => { c.resolve job with fetches := c.fetches ++ [.watching job] }
  | none => { c with fetches := c.fetches ++ [.answered none] }

/-- The coordinator after a look of a request. -/
def looked (c : Coordinator) (fetch : Nat) : Coordinator :=
  match c.fetches[fetch]? with
  | some f => { (c.serve f).2 with fetches := c.fetches.set fetch (c.serve f).1 }
  | none => c

/-- The workshop after a job was started under an id that is free once there is room. -/
def started (w : Workshop) (id : PayloadId) (parent : Block) (attributes : PayloadAttributes) :
    Workshop :=
  { w with
    coordinator := (w.coordinator.startAs id parent attributes).after
    benches := w.benches ++ [{}]
    commissions := w.commissions ++ [⟨id, parent, attributes⟩] }

/-- The workshop after an event. -/
def step (w : Workshop) : Event → Workshop
  | .work job => w.stepLoop job (.work w.head w.coordinator.now)
  | .answer job outcome => w.stepLoop job (.answer outcome)
  | .start id parent attributes =>
    if ! w.coordinator.poisoned
        && ((w.coordinator.makeRoom parent.hash).2.table.entries.get? id).isNone then
      w.started id parent attributes
    else w
  | .cancel id => w.withCoordinator (w.coordinator.cancel id).2
  | .retrieve id => w.withCoordinator (requested w.coordinator id)
  | .look fetch => w.withCoordinator (looked w.coordinator fetch)
  | .move head => { w with head }
  | .pass ms => w.withCoordinator { w.coordinator with now := w.coordinator.now + ms }

/-- The workshop after some events. -/
def run (w : Workshop) (events : List Event) : Workshop := events.foldl step w

end Workshop

end ChainHead
