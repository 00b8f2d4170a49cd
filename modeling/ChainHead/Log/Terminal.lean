import ChainHead.Log.Filter
import ChainHead.Text.Quoted

/-!
# Log lines on a terminal

An event is shown as one line: its time, its level, its target, where in the program it arose, its
message and its other fields.  Colours are set by escape sequences.  Errors go to the stream of
errors and everything else to the stream of output.

The place is given as the source file.  A file below the working directory is shown relative to it:
when the file's name starts with the name of the directory, that start and the slashes behind it
give way to `./`.
-/

namespace ChainHead.Log

/-- The value of a field of an event. -/
inductive Event.Value where
  /-- A text. -/
  | text (s : String)
  /-- A text that is shown between quotes. -/
  | quoted (s : String)
  /-- A number. -/
  | number (n : Int)
  /-- A truth value. -/
  | truth (b : Bool)
deriving DecidableEq

/-- Something that the program reports. -/
structure Event where
  /-- How grave it is. -/
  level : Level
  /-- The part of the program that reports it. -/
  target : String
  /-- The source file of the report, if it is known. -/
  file : Option String
  /-- Its fields in order; the ones that are called `message` make up its message. -/
  fields : List (String × Event.Value)
deriving DecidableEq

/-- How a value is shown. -/
def Event.Value.shown : Event.Value → String
  | text s => s
  | quoted s => Text.quoted s
  | number n => toString n
  | truth b => if b then "true" else "false"

/-- The colours in use. -/
inductive Colour where
  /-- Red. -/
  | red
  /-- Yellow. -/
  | yellow
  /-- Blue. -/
  | blue
  /-- Purple. -/
  | purple
  /-- Cyan. -/
  | cyan
deriving DecidableEq

namespace Colour

/-- The number of the colour in an escape sequence. -/
def code : Colour → Nat
  | red => 31
  | yellow => 33
  | blue => 34
  | purple => 35
  | cyan => 36

/-- A text in the colour. -/
def paint (c : Colour) (s : String) : String := "\x1b[" ++ toString c.code ++ "m" ++ s ++ "\x1b[0m"

end Colour

/-- The colour of a level, if it has one. -/
def Level.colour? : Level → Option Colour
  | error => some .red
  | warn => some .yellow
  | info => some .blue
  | debug => none
  | trace => some .purple

/-- The name of a level in its colour. -/
def Level.painted (l : Level) : String :=
  match l.colour? with
  | some c => c.paint l.name
  | none => l.name

/-- The place of a file as it is shown in a working directory. -/
def location (directory file : String) : String :=
  match List.isPrefixOf? directory.toList file.toList with
  | some rest => "./" ++ String.ofList (rest.dropWhile (· = '/'))
  | none => file

/-- The streams of a program. -/
inductive Stream where
  /-- The stream of output. -/
  | output
  /-- The stream of errors. -/
  | errors
deriving DecidableEq

namespace Event

/-- The message. -/
def message (e : Event) : String :=
  String.join ((e.fields.filter fun (name, _) => name = "message").map fun (_, v) => v.shown)

/-- The other fields as they are shown. -/
def shownFields (e : Event) : String :=
  String.join ((e.fields.filter fun (name, _) => name ≠ "message").map fun (name, v) =>
    " " ++ Colour.cyan.paint name ++ "=" ++ v.shown)

/-- The line of an event that names a place. -/
def lineAt (time place : String) (e : Event) : String :=
  "[" ++ Colour.cyan.paint time ++ "] " ++ e.level.painted ++ ": " ++ Colour.purple.paint e.target
    ++ " at " ++ Colour.cyan.paint place ++ " " ++ e.message ++ e.shownFields

/-- The line of an event. -/
def line (time directory : String) (e : Event) : String :=
  e.lineAt time (location directory (e.file.getD ""))

/-- The stream of an event. -/
def stream (e : Event) : Stream := if e.level = .error then .errors else .output

/-- What a filter leaves to print of an event. -/
def print? (filter : Filter) (time directory : String) (e : Event) : Option (Stream × String) :=
  if filter.passes e.target e.level then some (e.stream, e.line time directory) else none

end Event

end ChainHead.Log
