import ChainHead.Failure

/-!
# Setting up logging

Logging is set up once for the whole program.  It may also go to a file for each day, which is
created before anything can go wrong; whoever sets it up then gets a guard that holds the file open.
-/

namespace ChainHead.Log

/-- What the names of log files start with. -/
def fileNameStart : String := "tiller.log"

/-- The name of the log file of a day, which is written as year, month and day. -/
def fileName (day : String) : String := s!"{fileNameStart}.{day}"

/-- The standard filter. -/
def standardFilter (verbose : Bool) : String := if verbose then "tiller=debug" else "tiller=info"

/-- What an attempt to set up logging gives. -/
structure Setup where
  /-- Whether there is a guard, or why logging could not be set up. -/
  guard : Except Fault Bool
  /-- The files that were created. -/
  files : List String

/-- Sets up logging on a day, to files too if that is wanted. -/
def setUp (installed : Bool) (toFiles : Bool) (day : String) : Setup where
  guard := if installed then .error .loggingInstalled else .ok toFiles
  files := if toFiles then [fileName day] else []

end ChainHead.Log
