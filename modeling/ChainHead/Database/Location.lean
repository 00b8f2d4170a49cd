import ChainHead.Bytes

/-!
# Where a database lives

A database lives at the path that it is given.  Where nothing can be opened there, it takes a
directory of its own for temporary data, under a random identifier of version 4: of its sixteen
bytes, four bits are the version and two the variant, and all others are random.
-/

namespace ChainHead.Database

/-- The text of an identifier: its digits in groups of 8, 4, 4, 4 and 12. -/
def identifierText (bytes : Bytes 16) : String :=
  let digits := Hex.ofBytes bytes.toList
  let group (start length : Nat) := String.ofList ((digits.drop start).take length)
  "-".intercalate [group 0 8, group 8 4, group 12 4, group 16 4, group 20 12]

/-- The bytes with the version and the variant of random identifiers in their places. -/
def randomIdentifier (bytes : Bytes 16) : Bytes 16 where
  toList := (bytes.toList.modify 6 fun b => b &&& 0x0F ||| 0x40).modify 8 fun b => b &&& 0x3F ||| 0x80
  length_toList := by simp [bytes.length_toList]

/-- The directory for temporary databases. -/
def temporaryDirectory : String := "/tmp/tiller/"

/-- The place to fall back to, from random bytes. -/
def fallbackLocation (bytes : Bytes 16) : String :=
  temporaryDirectory ++ identifierText (randomIdentifier bytes)

/-- The place at which a database is opened, given whether the one it is meant for can be used. -/
def location (path : String) (usable : Bool) (bytes : Bytes 16) : String :=
  if usable then path else fallbackLocation bytes

end ChainHead.Database
