/-!
# The release

The program tells its name, its version and the way it was built in one text, such as
`tiller/v0.1.0-dev`.
-/

namespace ChainHead

/-- A release of a program. -/
structure Release where
  /-- The name of the program. -/
  name : String
  /-- Its version. -/
  version : String
  /-- The way it was built. -/
  build : String
deriving DecidableEq

namespace Release

/-- The text of a release. -/
def text (r : Release) : String := s!"{r.name}/v{r.version}-{r.build}"

/-- This release. -/
def current : Release := ⟨"tiller", "0.1.0", "dev"⟩

end Release

end ChainHead
