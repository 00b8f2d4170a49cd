/-!
# Places below the home directory

The settings are read from a file, and the chain is stored in a directory, in a directory of the
program below the home directory.
-/

namespace ChainHead.Settings

/-- The path of an entry of a directory. -/
def join (directory name : String) : String :=
  if directory.endsWith "/" then directory ++ name else directory ++ "/" ++ name

/-- The directory of the program. -/
def programDirectory (home : String) : String := join home ".tiller"

/-- The file of settings, unless another one is named. -/
def defaultFile (home : String) : String := join (programDirectory home) "tiller.toml"

/-- The directory of the chain, unless another one is configured. -/
def defaultDataDirectory (home : String) : String := join (programDirectory home) "data"

end ChainHead.Settings
