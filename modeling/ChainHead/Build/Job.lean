import ChainHead.Build.EmptyBlock
import ChainHead.Build.Timing
import ChainHead.Log.Notice

/-!
# Payload jobs

A job improves the payload on one parent.  It works in turns, and between two turns it rests or
waits for the builder:

* when it has rested, it looks at its flags and at the head of the chain (`Job.goesOn`), and either
  ends or asks the builder for a payload;
* when the builder has answered, it publishes the payload or reports that there is none
  (`Job.answered`), and then rests until the next attempt or, at its deadline, ends.

A job that was cancelled or lost the head asks for nothing more.  One whose payload was asked for
ends as soon as it has a payload, or when its next attempt fails.
-/

namespace ChainHead

open ChainHead.Log (Notice)

/-- How the builder ends its work on an order. -/
inductive BuilderAnswer.Kind where
  /-- It builds the block without transactions. -/
  | success
  /-- It reports that it has nothing to build from. -/
  | failure
  /-- It stops the job that asked. -/
  | crash
deriving DecidableEq

/-- What the builder makes of an order, and how long it takes. -/
structure BuilderAnswer where
  /-- How it ends. -/
  kind : BuilderAnswer.Kind
  /-- The milliseconds that it takes. -/
  delay : Nat := 0
deriving DecidableEq

namespace BuilderAnswer

/-- It succeeds at once. -/
def succeed : BuilderAnswer where kind := .success

/-- It fails at once. -/
def fail : BuilderAnswer where kind := .failure

/-- It crashes at once. -/
def crash : BuilderAnswer where kind := .crash

/-- It takes so many milliseconds and then succeeds. -/
def succeedAfter (ms : Nat) : BuilderAnswer := ⟨.success, ms⟩

end BuilderAnswer

/-- Where a job stands between two turns. -/
inductive Job.Phase where
  /-- Before its next attempt. -/
  | resting
  /-- In an attempt, which will end like this. -/
  | building (kind : BuilderAnswer.Kind)
  /-- At its end. -/
  | ended
  /-- Stopped by the builder. -/
  | crashed
deriving DecidableEq

/-- A payload job. -/
structure Job where
  /-- Its id. -/
  id : PayloadId
  /-- The block its payload stands on. -/
  parent : Block
  /-- What is asked of the payload. -/
  attributes : PayloadAttributes
  /-- The time after which it makes no more attempts. -/
  deadline : Nat
  /-- Where it stands. -/
  phase : Job.Phase := .resting
  /-- The number of its attempts that were answered and did not end it. -/
  iteration : Nat := 0
  /-- The payload it published last. -/
  best : Option BuiltPayload := none
  /-- Whether it was taken off the table. -/
  cancelled : Bool := false
  /-- Whether its payload was asked for. -/
  resolved : Bool := false
deriving DecidableEq

/-- What a turn makes of a job. -/
structure Job.Turn where
  /-- The job after the turn. -/
  job : Job
  /-- When it wants its next turn, if it wants one. -/
  wake : Option Nat
  /-- What it reports. -/
  notices : List Notice

namespace Job

/-- Whether the job is at its end, one way or the other. -/
def isFinished (j : Job) : Bool := j.phase = .ended || j.phase = .crashed

/-- The order for its next attempt. -/
def order (j : Job) : BuildOrder := ⟨j.parent, j.attributes, j.iteration⟩

/-- Whether a rested job makes another attempt under this head of the chain. -/
def goesOn (j : Job) (head : Option Hash) : Bool :=
  ! j.cancelled && ! (j.resolved && j.best.isSome) && head == some j.parent.hash

/-- Ends the job, after some reports. -/
def stop (j : Job) (notices : List Notice) : Turn :=
  ⟨{ j with phase := .ended }, none, notices ++ [.done j.id j.iteration]⟩

/-- Ends a rested job that makes no more attempts. -/
def quit (j : Job) : Turn :=
  if j.cancelled || (j.resolved && j.best.isSome) then j.stop []
  else j.stop [.parentReplaced j.id]

/-- Goes on after an attempt that did not end the job. -/
def rest (j : Job) (timing : Timing) (now : Nat) (notices : List Notice) : Turn :=
  let j := { j with iteration := j.iteration + 1 }
  if j.deadline ≤ now then j.stop notices
  else
    ⟨{ j with phase := .resting }, some (min j.deadline (now + max 1 timing.interval)), notices⟩

/-- Publishes a payload. -/
def publish (j : Job) (p : BuiltPayload) : Job := { j with best := some p }

/-- Takes the answer of the builder. -/
def answered (j : Job) (timing : Timing) (now : Nat) : BuilderAnswer.Kind → Turn
  | .crash => ⟨{ j with phase := .crashed }, none, []⟩
  | .failure =>
    if j.resolved && j.best.isNone then j.stop [.attemptFailed j.id]
    else j.rest timing now [.attemptFailed j.id]
  | .success =>
    match j.order.emptyBlock with
    | .ok p => (j.publish p).rest timing now []
    | .error _ => ⟨{ j with phase := .crashed }, none, []⟩

/-- Asks the builder, which will answer at once or later. -/
def ask (j : Job) (timing : Timing) (now : Nat) (answer : BuilderAnswer) : Turn :=
  if answer.delay = 0 then j.answered timing now answer.kind
  else ⟨{ j with phase := .building answer.kind }, some (now + answer.delay), []⟩

end Job

end ChainHead
