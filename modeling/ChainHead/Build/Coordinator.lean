import ChainHead.Build.Job
import ChainHead.Build.Table

/-!
# The coordinator of payload jobs

The coordinator holds every job that was ever started, numbered in that order, and the table of the
jobs whose payload can be fetched.  Time is a number of milliseconds.  A job that waits has one
`Wakeup`, and wake-ups of one time are served in the order in which they were asked for.

This module holds the state and what callers do to it at one instant: start, cancel, look up.  How
jobs work through time is in `ChainHead.Build.Run`.

A call that stops while it holds the table leaves it poisoned.  From then on no job can be started,
cancelled or looked up, and the gauge stays as it is, while jobs that run go on.
-/

namespace ChainHead

open ChainHead.Log (Notice)

/-- The time at which a job has its next turn. -/
structure Wakeup where
  /-- The number of the job. -/
  job : Nat
  /-- The time. -/
  time : Nat
deriving DecidableEq

/-- A call of the builder. -/
structure Attempt where
  /-- The id of the job that called. -/
  id : PayloadId
  /-- The number of attempts of the job before. -/
  iteration : Nat
  /-- When it called. -/
  time : Nat
deriving DecidableEq

/-- A request for the payload of a job, of one who waits for it. -/
inductive Fetch where
  /-- It was not looked at yet. -/
  | asked (id : PayloadId)
  /-- It waits for a job to publish or to end. -/
  | watching (job : Nat)
  /-- It is answered. -/
  | answered (payload : Option BuiltPayload)

/-- A report of a job. -/
structure JobNotice where
  /-- The number of the job. -/
  job : Nat
  /-- What it reports. -/
  notice : Notice

/-- The state of all payload jobs. -/
structure Coordinator where
  /-- The timing of the jobs. -/
  timing : Timing
  /-- What the builder answers to its calls in turn; past the end of the list it succeeds. -/
  script : List BuilderAnswer
  /-- The time. -/
  now : Nat := 0
  /-- The jobs by number. -/
  jobs : List Job := []
  /-- The wake-ups in the order in which they were asked for. -/
  wakeups : List Wakeup := []
  /-- The jobs whose payload can be fetched. -/
  table : JobTable := .empty
  /-- Whether a call stopped while it held the table. -/
  poisoned : Bool := false
  /-- The calls of the builder in their order. -/
  attempts : Array Attempt := #[]
  /-- The number of jobs at work, as it was last published. -/
  gauge : Int := 0
  /-- The number of ids that were drawn. -/
  drawn : Nat := 0
  /-- What the jobs reported, in its order. -/
  journal : Array JobNotice := #[]
  /-- The requests of those who wait, by number. -/
  fetches : List Fetch := []

namespace Coordinator

/-! ## Views -/

/-- Whether a job has not ended. -/
def isActive (c : Coordinator) (job : Nat) : Bool :=
  match c.jobs[job]? with
  | some j => ! j.isFinished
  | none => false

/-- The number of jobs in the table that have not ended, one id left out. -/
def activeExcept (c : Coordinator) (id : PayloadId) : Nat :=
  c.table.entries.entries.countP fun (other, entry) => other ≠ id && c.isActive entry.job

/-- The number of jobs in the table that have not ended. -/
def activeInTable (c : Coordinator) : Nat := c.table.jobs.countP c.isActive

/-- The number of jobs at work, as far as callers can tell. -/
def activeJobs (c : Coordinator) : Nat := if c.poisoned then 0 else c.activeInTable

/-- The number of the job with an id, if its payload can be fetched. -/
def lookup? (c : Coordinator) (id : PayloadId) : Option Nat :=
  if c.poisoned then none else (c.table.entries.get? id).map JobEntry.job

/-- The id of the job on a parent, if its payload can be fetched. -/
def currentFor? (c : Coordinator) (parent : Hash) : Option PayloadId :=
  if c.poisoned then none else c.table.byParent.get? parent

/-- The payload that a job published last. -/
def best? (c : Coordinator) (job : Nat) : Option BuiltPayload := c.jobs[job]?.bind Job.best

/-- What the jobs reported since the journal was last taken, by the number of the job. -/
def reports (c : Coordinator) : List Notice :=
  (c.journal.toList.mergeSort fun a b => a.job ≤ b.job).map JobNotice.notice

/-- The coordinator with its journal taken. -/
def clearJournal (c : Coordinator) : Coordinator := { c with journal := #[] }

/-- A coordinator without jobs at the same time.  Who still waits for a payload gets none. -/
def renew (c : Coordinator) (script : List BuilderAnswer) : Coordinator where
  timing := c.timing
  script := script
  now := c.now
  gauge := c.gauge
  fetches := c.fetches.map fun
    | .answered payload => .answered payload
    | _ => .answered none

/-! ## Removing jobs -/

/-- The coordinator with one job changed. -/
def modifyJob (c : Coordinator) (job : Nat) (f : Job → Job) : Coordinator :=
  { c with jobs := c.jobs.modify job f }

/-- Takes a job off the table and tells it so. -/
def remove (c : Coordinator) (id : PayloadId) : Coordinator :=
  match c.table.entries.get? id with
  | none => c
  | some entry =>
    { c.modifyJob entry.job (fun j => { j with cancelled := true }) with table := c.table.erase id }

/-- Cancels a job.  Says whether there was one. -/
def cancel (c : Coordinator) (id : PayloadId) : Bool × Coordinator :=
  match c.lookup? id with
  | some _ => (true, c.remove id)
  | none => (false, c)

/-- Removes the job on the same parent, and then as many of the earliest jobs as it takes to have
room for one more. -/
def makeRoom (c : Coordinator) (parent : Hash) : List Notice × Coordinator :=
  let superseded := (c.table.superseded? parent).toList
  let c := superseded.foldl remove c
  let evicted := c.table.evicted
  (superseded.map Notice.superseded ++ evicted.map Notice.evicted, evicted.foldl remove c)

/-! ## Starting jobs -/

/-- The id with a number: the bytes of its product with an odd constant, so that numbers below
`2 ^ 64` have different ids. -/
def draw (n : Nat) : PayloadId :=
  ⟨BuildOrder.bigEndian (UInt64.ofNat (n + 1) * 0x9E3779B97F4A7C15), by simp [BuildOrder.bigEndian]⟩

/-- The first number from `drawn` on whose id is not in the table.  One of so many ids as the table
can hold, and one more, is free. -/
def nextFree (c : Coordinator) : Nat :=
  ((List.range (JobTable.capacity + 1)).map (c.drawn + ·)).find?
    (fun n => (c.table.entries.get? (draw n)).isNone) |>.getD c.drawn

/-- Adds a job under an id that is free.  A job sets its deadline in its first turn, and as that is
due at once, the deadline is known already (`Coordinator.deadline_of_first_turn`). -/
def place (c : Coordinator) (id : PayloadId) (parent : Block) (attributes : PayloadAttributes) :
    Coordinator :=
  let number := c.jobs.length
  let job : Job := { id, parent, attributes, deadline := c.now + c.timing.deadline }
  let c : Coordinator := { c with
    jobs := c.jobs ++ [job]
    wakeups := c.wakeups ++ [⟨number, c.now⟩]
    table := c.table.insert id ⟨number, parent.hash⟩ }
  { c with gauge := c.activeInTable }

/-- What a call to start a job gives. -/
structure Started where
  /-- The id of the job, or why there is none. -/
  result : Except Fault PayloadId
  /-- What the call reports. -/
  notices : List Notice
  /-- The state after the call. -/
  after : Coordinator

/-- Starts a job under an id that is free once there is room. -/
def startAs (c : Coordinator) (id : PayloadId) (parent : Block) (attributes : PayloadAttributes) :
    Started :=
  if c.poisoned then ⟨.error .lockPoisoned, [], c⟩
  else
    let (notices, c) := c.makeRoom parent.hash
    ⟨.ok id, notices ++ [.started id parent.hash], c.place id parent attributes⟩

/-- Starts a job under an id of its own. -/
def start (c : Coordinator) (parent : Block) (attributes : PayloadAttributes) : Started :=
  let n := (c.makeRoom parent.hash).2.nextFree
  let started := c.startAs (draw n) parent attributes
  { started with after := { started.after with drawn := n + 1 } }

/-- A call to start a job where no job can run: it makes room and then stops with the table in its
hands.  Says whether it got that far. -/
def startNowhere (c : Coordinator) (parent : Block) : Bool × List Notice × Coordinator :=
  if c.poisoned then (false, [], c)
  else
    let (notices, c) := c.makeRoom parent.hash
    (true, notices, { c with poisoned := true })

end Coordinator

end ChainHead
