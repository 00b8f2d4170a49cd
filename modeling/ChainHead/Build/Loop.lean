import ChainHead.Build.Run

/-!
# The loop of a payload job, step by step

A turn of a job (`ChainHead.Build.Run`) takes what the job does at one instant as one piece.  In
between others may set its flags, and the head may move.  Here the loop of the job is cut into the
steps that others can tell apart: each reads one flag, the payload, the head or the clock, or begins
or ends a call of the builder, or publishes (`Job.Loop.step`).

A `Scene` is the coordinator with the loop of one of its jobs.  Its events are the steps of that
loop, calls to the coordinator, moves of the head and the passing of time, in any order.
-/

namespace ChainHead

/-- Where the loop of a job stands between two steps. -/
inductive Job.Point where
  /-- Before it reads the clock for its deadline. -/
  | atStart
  /-- Before it reads whether it was cancelled, which begins the check of a round. -/
  | atCancelled
  /-- Before it reads whether its payload was asked for. -/
  | atResolved
  /-- Its payload was asked for; before it looks whether it has one. -/
  | atBest
  /-- Before it reads the head, which ends the check. -/
  | atHead
  /-- Before it calls the builder. -/
  | atCall
  /-- The builder is at work. -/
  | inCall
  /-- Before it publishes a payload. -/
  | atPublish (p : BuiltPayload)
  /-- The call has failed; before it reads whether its payload was asked for. -/
  | atFailed
  /-- The call has failed, and its payload was asked for; before it looks whether it has one. -/
  | atFailedBest
  /-- Before it reads the clock. -/
  | atClock
  /-- Asleep until a time. -/
  | asleep (time : Nat)
  /-- At its end. -/
  | ended
  /-- Stopped by the builder. -/
  | crashed
deriving DecidableEq

/-- How a call of the builder ends. -/
inductive Job.Outcome where
  /-- With a payload. -/
  | built (p : BuiltPayload)
  /-- Without one. -/
  | failed
  /-- It stops the job. -/
  | crashed

/-- The loop of a job, and how often it has done what. -/
structure Job.Loop where
  /-- The job. -/
  job : Job
  /-- Where the loop stands. -/
  point : Job.Point := .atStart
  /-- The number of calls of the builder that it began. -/
  calls : Nat := 0
  /-- The number of payloads that it published. -/
  published : Nat := 0
  /-- The number of checks that it finished. -/
  checks : Nat := 0
deriving DecidableEq

namespace Job.Loop

/-! ## One loop -/

/-- What may happen to a loop. -/
inductive Event where
  /-- It takes its next step, under a head of the chain and at a time. -/
  | work (head : Option Hash) (now : Nat)
  /-- The builder answers. -/
  | answer (outcome : Outcome)
  /-- The job is taken off the table. -/
  | cancel
  /-- The payload of the job is asked for. -/
  | resolve

/-- The loop at another point. -/
def goTo (l : Loop) (point : Point) : Loop := { l with point }

/-- The loop at the end of a check. -/
def endCheck (l : Loop) (point : Point) : Loop := { l with point, checks := l.checks + 1 }

/-- The next step of a loop.  While the builder is at work there is none. -/
def work (timing : Timing) (head : Option Hash) (now : Nat) (l : Loop) : Loop :=
  match l.point with
  | .atStart =>
    { l with job := { l.job with deadline := now + timing.deadline }, point := .atCancelled }
  | .atCancelled => if l.job.cancelled then l.endCheck .ended else l.goTo .atResolved
  | .atResolved => if l.job.resolved then l.goTo .atBest else l.goTo .atHead
  | .atBest => if l.job.best.isSome then l.endCheck .ended else l.goTo .atHead
  | .atHead => if head = some l.job.parent.hash then l.endCheck .atCall else l.endCheck .ended
  | .atCall => { l with point := .inCall, calls := l.calls + 1 }
  | .inCall => l
  | .atPublish p =>
    { l with job := l.job.publish p, point := .atClock, published := l.published + 1 }
  | .atFailed => if l.job.resolved then l.goTo .atFailedBest else l.goTo .atClock
  | .atFailedBest => if l.job.best.isNone then l.goTo .ended else l.goTo .atClock
  | .atClock =>
    let wake := min l.job.deadline (now + max 1 timing.interval)
    { l with
      job := { l.job with iteration := l.job.iteration + 1 }
      point := if l.job.deadline ≤ now then .ended else .asleep wake }
  | .asleep time => if time ≤ now then l.goTo .atCancelled else l
  | .ended => l
  | .crashed => l

/-- The loop with the answer of the builder, if it waits for one. -/
def answer (outcome : Outcome) (l : Loop) : Loop :=
  match l.point, outcome with
  | .inCall, .built p => l.goTo (.atPublish { p with iteration := l.job.iteration })
  | .inCall, .failed => l.goTo .atFailed
  | .inCall, .crashed => l.goTo .crashed
  | _, _ => l

/-- The loop after an event. -/
def step (timing : Timing) (l : Loop) : Event → Loop
  | .work head now => l.work timing head now
  | .answer outcome => l.answer outcome
  | .cancel => { l with job := { l.job with cancelled := true } }
  | .resolve => { l with job := { l.job with resolved := true } }

/-- The loop after some events. -/
def run (timing : Timing) (l : Loop) (events : List Event) : Loop := events.foldl (step timing) l

end Job.Loop

/-! ## The loop among callers -/

/-- The coordinator with the loop of one of its jobs. -/
structure Scene where
  /-- The coordinator. -/
  coordinator : Coordinator
  /-- The head of the chain. -/
  head : Option Hash
  /-- The number of the job. -/
  number : Nat
  /-- Where the loop of the job stands. -/
  point : Job.Point := .atStart
  /-- The number of calls of the builder that it began. -/
  calls : Nat := 0
  /-- The number of payloads that it published. -/
  published : Nat := 0
  /-- The number of checks that it finished. -/
  checks : Nat := 0

namespace Scene

/-- What may happen. -/
inductive Event where
  /-- The loop takes its next step. -/
  | work
  /-- The builder answers the call of the loop. -/
  | answer (outcome : Job.Outcome)
  /-- The payload of a job is asked for. -/
  | retrieve (id : PayloadId)
  /-- A job is cancelled. -/
  | cancel (id : PayloadId)
  /-- A job is started, unless the id is taken. -/
  | start (id : PayloadId) (parent : Block) (attributes : PayloadAttributes)
  /-- The head moves. -/
  | move (head : Option Hash)
  /-- Time passes. -/
  | pass (ms : Nat)

/-- The loop of the job. -/
def loop? (s : Scene) : Option Job.Loop :=
  s.coordinator.jobs[s.number]?.map fun j => ⟨j, s.point, s.calls, s.published, s.checks⟩

/-- The scene with the loop changed. -/
def put (s : Scene) (l : Job.Loop) : Scene :=
  { s with
    coordinator := s.coordinator.modifyJob s.number fun _ => l.job
    point := l.point
    calls := l.calls
    published := l.published
    checks := l.checks }

/-- The scene after an event of its loop. -/
def stepLoop (s : Scene) (event : Job.Loop.Event) : Scene :=
  match s.loop? with
  | some l => s.put (l.step s.coordinator.timing event)
  | none => s

/-- The coordinator after the payload of a job was asked for. -/
def retrieved (c : Coordinator) (id : PayloadId) : Coordinator :=
  match c.lookup? id with
  | some job => c.resolve job
  | none => c

/-- The scene after an event. -/
def step (s : Scene) : Event → Scene
  | .work => s.stepLoop (.work s.head s.coordinator.now)
  | .answer outcome => s.stepLoop (.answer outcome)
  | .retrieve id => { s with coordinator := retrieved s.coordinator id }
  | .cancel id => { s with coordinator := (s.coordinator.cancel id).2 }
  | .start id parent attributes =>
    if ((s.coordinator.makeRoom parent.hash).2.table.entries.get? id).isNone then
      { s with coordinator := (s.coordinator.startAs id parent attributes).after }
    else s
  | .move head => { s with head }
  | .pass ms => { s with coordinator := { s.coordinator with now := s.coordinator.now + ms } }

/-- The scene after some events. -/
def run (s : Scene) (events : List Event) : Scene := events.foldl step s

end Scene

end ChainHead
