/-!
# Log levels
-/

namespace ChainHead.Log

/-- How grave an event is, from the gravest on. -/
inductive Level where
  /-- Something failed. -/
  | error
  /-- Something is wrong, and the program goes on. -/
  | warn
  /-- Something worth knowing happened. -/
  | info
  /-- Something of interest to who looks for a fault. -/
  | debug
  /-- Each single step. -/
  | trace
deriving DecidableEq

namespace Level

/-- The name of the level. -/
def name : Level → String
  | error => "ERROR"
  | warn => "WARN"
  | info => "INFO"
  | debug => "DEBUG"
  | trace => "TRACE"

/-- The level in numbers: the graver, the smaller. -/
def rank : Level → Nat
  | error => 1
  | warn => 2
  | info => 3
  | debug => 4
  | trace => 5

/-- All levels, the gravest first. -/
def all : List Level := [error, warn, info, debug, trace]

end Level

end ChainHead.Log
