import ChainHead.Log.Terminal
import ChainHead.Release
import ChainHead.Rpc
import ChainHead.Settings.Config

/-!
# The service

What the program does with its configuration: it opens a chain at the first block of the network and
an engine on it (`Service.start`), and then answers calls as they come (`Service.answer`).  Between
two calls the payload jobs go on with the time that has passed.

Each step gives the events that are to be logged along with its result.
-/

namespace ChainHead.Service

open ChainHead.Log (Notice Event)

/-! ## Events -/

/-- An event of the program. -/
def event (level : Log.Level) (message : String) (fields : List (String × String)) : Event where
  level := level
  target := Release.current.name
  file := none
  fields := ("message", .text message) :: fields.map fun (name, s) => (name, .text s)

/-- The event of a notice. -/
def ofNotice (n : Notice) : Event :=
  event n.level n.message (n.fields.map fun (name, value) => (name, value.shown fun id => id.text))

/-- The event at the very start. -/
def greeting (c : Settings.Config) : Event :=
  event .info s!"starting {Release.current.text} on {c.network}" []

/-- The events of a start that came about. -/
def startEvents (s : Schedule) (heads : Heads) : List Event :=
  s.milestones.map (fun m => event .debug s!"{m.name} at timestamp {m.timestamp.toNat}" [])
  ++ [event .info "loaded canonical head"
    [("head", heads.head.hash.text), ("number", toString heads.head.number.toNat)]]

/-! ## The run of the program -/

/-- Opens the chain and the engine. -/
def start (c : Settings.Config) : Except Fault (List Event × Engine) := do
  let schedule ← c.schedule
  let (heads, database) ← Database.empty.initGenesis (← c.genesisBlock)
  let engine ← Engine.start { database } schedule { timing := c.builder, script := [] }
  return (startEvents schedule heads, engine)

/-- Takes what the payload jobs reported. -/
def takeReports (e : Engine) : List Notice × Engine :=
  (e.coordinator.reports, { e with coordinator := e.coordinator.clearJournal })

/-- Lets the payload jobs go on until a time, unless it is already later. -/
def passTime (e : Engine) (now : Nat) : List Notice × Engine :=
  takeReports { e with
    coordinator := e.coordinator.runUntil e.jobHead (max now e.coordinator.now) }

/-- Lets the payload jobs do what they can at once, after a call. -/
def settle (e : Engine) : List Notice × Engine :=
  takeReports { e with coordinator := e.coordinator.settle e.jobHead }

/-- What a call gives. -/
structure Reply where
  /-- The text of the response. -/
  text : String
  /-- What is to be logged. -/
  events : List Event
  /-- The engine after the call. -/
  after : Engine

/-- Answers a call that comes at a time. -/
def answer (e : Engine) (now : Nat) (call : String) : Reply :=
  let (earlier, e) := passTime e now
  let response := Rpc.respond e call
  let (later, e) := settle response.after
  ⟨response.text, (earlier ++ response.notices ++ later).map ofNotice, e⟩

end ChainHead.Service
