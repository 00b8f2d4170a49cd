import ChainHead.Build.Coordinator

/-!
# Payload jobs through time

At one instant the jobs whose wake-ups are due have a turn each, and then those who wait for a
payload look whether there is one (`Coordinator.settle`).  Time goes on from wake-up to wake-up
(`Coordinator.runUntil`), and a job asks for a wake-up only at a later time, so no instant is left
before everything due at it is done.

Whoever waits for the payload of a job waits for at most two turns of that job: it was told that its
payload was asked for, so it publishes or ends when the attempt of its next turn is answered.
-/

namespace ChainHead

namespace Coordinator

/-! ## One instant -/

/-- Takes over what a turn made of a job.  A job that ends publishes how many are left. -/
def conclude (c : Coordinator) (job : Nat) (turn : Job.Turn) : Coordinator :=
  let c := { c with
    jobs := c.jobs.set job turn.job
    wakeups := c.wakeups ++ turn.wake.toList.map (Wakeup.mk job)
    journal := c.journal ++ turn.notices.map (JobNotice.mk job) }
  if turn.job.phase = .ended && ! c.poisoned then
    { c with gauge := c.activeExcept turn.job.id }
  else c

/-- What the builder answers to its next call. -/
def nextAnswer (c : Coordinator) : BuilderAnswer :=
  c.script[c.attempts.size]?.getD .succeed

/-- Notes a call of the builder. -/
def note (c : Coordinator) (j : Job) : Coordinator :=
  { c with attempts := c.attempts.push ⟨j.id, j.iteration, c.now⟩ }

/-- A turn of a job under a head of the chain. -/
def turn (c : Coordinator) (head : Option Hash) (job : Nat) : Coordinator :=
  match c.jobs[job]? with
  | none => c
  | some j =>
    match j.phase with
    | .resting =>
      if j.goesOn head then
        let turn := j.ask c.timing c.now c.nextAnswer
        (c.note j).conclude job turn
      else c.conclude job j.quit
    | .building kind => c.conclude job (j.answered c.timing c.now kind)
    | .ended => c
    | .crashed => c

/-- The jobs whose turn it is. -/
def due (c : Coordinator) : List Nat :=
  (c.wakeups.filter fun w => w.time ≤ c.now).map Wakeup.job

/-- A turn of each job whose turn it is. -/
def runDue (c : Coordinator) (head : Option Hash) : Coordinator :=
  c.due.foldl (fun c job => c.turn head job)
    { c with wakeups := c.wakeups.filter fun w => c.now < w.time }

/-- Tells a job that its payload was asked for. -/
def resolve (c : Coordinator) (job : Nat) : Coordinator :=
  c.modifyJob job fun j => { j with resolved := true }

/-- What a request finds that waits for a job. -/
def watch (c : Coordinator) (job : Nat) : Fetch :=
  match c.best? job with
  | some p => .answered (some p)
  | none => if c.isActive job then .watching job else .answered none

/-- One look of a request. -/
def serve (c : Coordinator) : Fetch → Fetch × Coordinator
  | .answered p => (.answered p, c)
  | .watching job => (c.watch job, c)
  | .asked id =>
    match c.lookup? id with
    | none => (.answered none, c)
    | some job => ((c.resolve job).watch job, c.resolve job)

/-- One look of each request. -/
def serveAll (c : Coordinator) : List Fetch → List Fetch × Coordinator
  | [] => ([], c)
  | f :: rest =>
    let (f, c) := c.serve f
    let (rest, c) := c.serveAll rest
    (f :: rest, c)

/-- Everything that is due at the present instant. -/
def settle (c : Coordinator) (head : Option Hash) : Coordinator :=
  let c := c.runDue head
  let (fetches, c) := c.serveAll c.fetches
  { c with fetches }

/-! ## Through time -/

/-- The time of the next wake-up. -/
def nextTime? (c : Coordinator) : Option Nat := (c.wakeups.map Wakeup.time).min?

/-- Goes from wake-up to wake-up until a time.  Each lies at least a millisecond after the last, so
the number of milliseconds is enough fuel. -/
def runFor (head : Option Hash) (limit : Nat) : Nat → Coordinator → Coordinator
  | 0, c => { c with now := limit }
  | fuel + 1, c =>
    match c.nextTime? with
    | none => { c with now := limit }
    | some time =>
      if limit < time then { c with now := limit }
      else runFor head limit fuel ({ c with now := max c.now time }.settle head)

/-- Goes on until a time. -/
def runUntil (c : Coordinator) (head : Option Hash) (limit : Nat) : Coordinator :=
  runFor head limit (limit - c.now) c

/-- Lets a number of milliseconds pass. -/
def sleep (c : Coordinator) (head : Option Hash) (ms : Nat) : Coordinator :=
  (c.settle head).runUntil head (c.now + ms)

/-- Goes on until the next turn of a job is done. -/
def runTurnOf (c : Coordinator) (head : Option Hash) (job : Nat) : Coordinator :=
  match c.wakeups.find? (·.job = job) with
  | some w => c.runUntil head w.time
  | none => c

/-! ## Fetching a payload -/

/-- Waits for the payload of a job that was told to give it. -/
def await (c : Coordinator) (head : Option Hash) (job : Nat) : Option BuiltPayload × Coordinator :=
  if (c.best? job).isSome || ! c.isActive job then (c.best? job, c)
  else
    let c := c.settle head
    let c := if (c.best? job).isSome then c else c.runTurnOf head job
    let c := if (c.best? job).isSome then c else c.runTurnOf head job
    (c.best? job, c)

/-- Fetches the payload of a job, and waits for its first one if need be. -/
def retrieve (c : Coordinator) (head : Option Hash) (id : PayloadId) :
    Option BuiltPayload × Coordinator :=
  match c.lookup? id with
  | none => (none, c)
  | some job => (c.resolve job).await head job

/-- Leaves a request for the payload of a job.  Gives the number of the request. -/
def ask (c : Coordinator) (id : PayloadId) : Nat × Coordinator :=
  (c.fetches.length, { c with fetches := c.fetches ++ [.asked id] })

/-- Whether a request is answered. -/
def isAnswered (c : Coordinator) (fetch : Nat) : Bool :=
  match c.fetches[fetch]? with
  | some (.answered _) => true
  | _ => false

/-- Waits for the answer to a request. -/
def join (c : Coordinator) (head : Option Hash) (fetch : Nat) :
    Option BuiltPayload × Coordinator :=
  let c := c.settle head
  match c.fetches[fetch]? with
  | some (.answered p) => (p, c)
  | some (.watching job) => c.await head job
  | _ => (none, c)

end Coordinator

end ChainHead
