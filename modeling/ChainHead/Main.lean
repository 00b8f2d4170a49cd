import ChainHead.CommandLine
import ChainHead.Log.Setup
import ChainHead.Service

/-!
# The program

Reads the command line, the environment and the file of settings, and then answers the calls on the
stream of input, one a line.  The answers go to the stream of output and the log to that of errors.
The chain is kept in memory and ends with the program.
-/

namespace ChainHead

open ChainHead.Log (Event Filter)

/-- How log lines are printed. -/
structure Printer where
  /-- Which events are printed. -/
  filter : Filter
  /-- The working directory. -/
  directory : String
  /-- When the program was started. -/
  started : Nat

/-- The milliseconds since the program was started. -/
def Printer.now (p : Printer) : IO Nat := return (← IO.monoMsNow) - p.started

/-- Prints the events that pass. -/
def Printer.print (p : Printer) (events : List Event) : IO Unit := do
  let time := s!"{← p.now} ms"
  events.forM fun event =>
    match event.print? p.filter time p.directory with
    | some (_, line) => IO.eprintln line
    | none => pure ()

/-- The text of a file, if it can be read. -/
def readFile? (path : String) : IO (Option String) :=
  try return some (← IO.FS.readFile path) catch _ => return none

/-- The variables that set something. -/
def readVariables : IO (List (String × String)) :=
  Settings.variableNames.filterMapM fun name => do
    return (← IO.getEnv name).map fun value => (name, value)

/-- Answers calls until the input ends. -/
partial def serve (p : Printer) (engine : Engine) : IO Unit := do
  let call ← (← IO.getStdin).getLine
  if call.isEmpty then return
  let reply := Service.answer engine (← p.now) call
  p.print reply.events
  IO.println reply.text
  (← IO.getStdout).flush
  serve p reply.after

/-- Runs the program under options. -/
def run (options : CommandLine.Options) : IO UInt32 := do
  let home := (← IO.getEnv "HOME").getD ""
  let file ← readFile? (options.config.getD (Settings.defaultFile home))
  match Settings.Config.load home file (← readVariables) options.overrides with
  | .error error =>
    IO.eprintln error.message
    return 1
  | .ok config =>
    let printer : Printer := {
      filter := .ofTextOr (Log.standardFilter options.verbose)
      directory := (← IO.currentDir).toString
      started := ← IO.monoMsNow }
    printer.print [Service.greeting config]
    match Service.start config with
    | .error fault =>
      IO.eprintln fault.message
      return 1
    | .ok (events, engine) =>
      printer.print events
      serve printer engine
      return 0

end ChainHead

/-- Runs the program under a command line. -/
def main (words : List String) : IO UInt32 := do
  match ChainHead.CommandLine.parse words (← IO.getEnv "TILLER_NETWORK") with
  | .ok options => ChainHead.run options
  | .error refusal =>
    if refusal.isWanted then
      IO.println refusal.message
      return 0
    else
      IO.eprintln refusal.message
      return 2
