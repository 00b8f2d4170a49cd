import ChainHead.Json.Record

/-!
# The fork schedule

A schedule lists the protocol upgrades of a network and the times from which they are active.  It
is built from any list of milestones by `Schedule.ofList`: of two entries for one fork the later
one counts and takes the place of the earlier, and the list is then sorted by time, entries of one
time keeping their order.  Overrides are therefore entries put behind those of a preset.

Names are compared without regard to ASCII case.  A fork without an entry is never active.
-/

namespace ChainHead

/-- The upgrades that versions of the protocol depend on. -/
inductive Hardfork where
  /-- The change to proof of stake. -/
  | paris
  /-- The upgrade that brought withdrawals. -/
  | shanghai
  /-- The upgrade that brought blobs and the root of the parent beacon block. -/
  | cancun
  /-- The upgrade that followed it. -/
  | prague
deriving DecidableEq

/-- Whether two names are equal but for the case of ASCII letters. -/
def SameName (a b : String) : Prop := a.toList.map Char.toLower = b.toList.map Char.toLower

instance (a b : String) : Decidable (SameName a b) :=
  inferInstanceAs (Decidable (a.toList.map Char.toLower = b.toList.map Char.toLower))

namespace Hardfork

/-- The name of the upgrade in schedules. -/
def name : Hardfork → String
  | paris => "Paris"
  | shanghai => "Shanghai"
  | cancun => "Cancun"
  | prague => "Prague"

/-- The upgrades in the order in which they came. -/
def all : List Hardfork := [paris, shanghai, cancun, prague]

/-- The upgrade with that name, in any case of letters. -/
def ofName? (s : String) : Option Hardfork := all.find? fun fork => SameName fork.name s

/-- Reads an upgrade: its exact name, alone or as the only field of an object that is null. -/
def read : Json.Reading Hardfork := Json.readWith fun
  | .str s => all.find? fun fork => fork.name = s
  | .obj [(s, .null)] => all.find? fun fork => fork.name = s
  | _ => none

/-- The JSON value of an upgrade. -/
def toJson (fork : Hardfork) : Json := .str fork.name

end Hardfork

/-- A fork and the time from which it is active. -/
structure Milestone where
  /-- The name of the fork. -/
  name : String
  /-- The time of its first block. -/
  timestamp : UInt64
deriving DecidableEq

namespace Milestone

/-- How a milestone is read. -/
def form : Json.Form Milestone :=
  Milestone.mk <$> .required "name" Json.readString <*> .required "timestamp" Json.readWord

/-- The JSON value of a milestone. -/
def toJson (m : Milestone) : Json := .obj [("name", .str m.name), ("timestamp", Json.ofWord m.timestamp)]

/-- The list with the milestone in it: in the place of one of its name, or else at the end. -/
def putInto (m : Milestone) : List Milestone → List Milestone
  | [] => [m]
  | other :: rest => if SameName other.name m.name then m :: rest else other :: m.putInto rest

end Milestone

/-- The milestones of a network by time. -/
structure Schedule where
  /-- The milestones. -/
  milestones : List Milestone
deriving DecidableEq

namespace Schedule

/-- The last entries of each name, in the order in which the names first occur. -/
def lastOfEachName (ms : List Milestone) : List Milestone :=
  ms.foldl (fun kept m => m.putInto kept) []

/-- The schedule that a list of milestones describes. -/
def ofList (ms : List Milestone) : Schedule :=
  ⟨(lastOfEachName ms).mergeSort fun a b => a.timestamp ≤ b.timestamp⟩

/-- The schedule without milestones. -/
def empty : Schedule := ⟨[]⟩

/-- The schedule with further entries on top. -/
def withOverrides (s : Schedule) (ms : List Milestone) : Schedule := ofList (s.milestones ++ ms)

/-- The milestone of the named fork. -/
def milestoneFor? (s : Schedule) (name : String) : Option Milestone :=
  s.milestones.find? fun m => SameName m.name name

/-- Whether the named fork is active at a time. -/
def isActive (s : Schedule) (name : String) (time : UInt64) : Bool :=
  match s.milestoneFor? name with
  | some m => m.timestamp ≤ time
  | none => false

/-- The latest milestone that is active at a time. -/
def activeAt? (s : Schedule) (time : UInt64) : Option Milestone :=
  (s.milestones.takeWhile fun m => m.timestamp ≤ time).getLast?

/-- Reads a schedule from a list of milestones. -/
def read : Json.Reading Schedule := fun j => (Json.readList Milestone.form.read j).map ofList

/-- The JSON value of a schedule. -/
def toJson (s : Schedule) : Json := .arr (s.milestones.map Milestone.toJson)

/-! ## Known networks -/

/-- The schedule of the main network. -/
def mainnet : Schedule := ofList [
  ⟨"Paris", 1663224179⟩, ⟨"Shanghai", 1681338455⟩, ⟨"Cancun", 1710338135⟩, ⟨"Prague", 1746612311⟩]

/-- The schedule of the Sepolia test network. -/
def sepolia : Schedule := ofList [
  ⟨"Shanghai", 1677557088⟩, ⟨"Cancun", 1706655072⟩, ⟨"Prague", 1741159776⟩]

/-- The schedule of the Holesky test network. -/
def holesky : Schedule := ofList [
  ⟨"Paris", 1695902400⟩, ⟨"Shanghai", 1696000704⟩, ⟨"Cancun", 1707305664⟩, ⟨"Prague", 1740434112⟩]

/-- The schedule of a local network, with all forks active from the start. -/
def devnet : Schedule := ofList [
  ⟨"Paris", 0⟩, ⟨"Shanghai", 0⟩, ⟨"Cancun", 0⟩, ⟨"Prague", 0⟩]

/-- The schedule of a known network, whose name may be in any case of letters. -/
def ofNetwork? (network : String) : Option Schedule :=
  if SameName network "mainnet" then some mainnet
  else if SameName network "sepolia" then some sepolia
  else if SameName network "holesky" then some holesky
  else if SameName network "devnet" then some devnet
  else none

end Schedule

end ChainHead
