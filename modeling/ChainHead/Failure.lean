import ChainHead.Bytes

/-!
# Failures

An operation on the chain fails in one of two ways.  A `Fault` is reported to the caller and names
its cause.  An overflow of a 64-bit addition stops the operation where it stands, and whoever holds
a lock at that moment leaves it poisoned.
-/

namespace ChainHead

/-- The cause of a reported failure. -/
inductive Fault where
  /-- The storage of blocks could not be read. -/
  | blocksUnreadable
  /-- The storage of rejected blocks could not be read. -/
  | rejectedUnreadable
  /-- The storage of the pointers could not be read. -/
  | pointersUnreadable
  /-- The pointers could not be written. -/
  | diskFull
  /-- A stored value is not the text of what it should be. -/
  | undecodable
  /-- The parent of a block is stored at a height other than the one below it. -/
  | brokenLink (block : Hash) (number parentNumber : UInt64)
  /-- An earlier operation stopped while it held the lock. -/
  | lockPoisoned
  /-- The store has no pointers to start from. -/
  | noCanonicalHead
  /-- The network is unknown and its first block is not configured. -/
  | noGenesis (network : String)
  /-- The network is unknown and no forks are configured. -/
  | noSchedule (network : String)
  /-- The address to serve on is not an address. -/
  | badAddress (text : String)
  /-- Logging was already set up. -/
  | loggingInstalled
deriving DecidableEq

/-- The wording of a fault. -/
def Fault.message : Fault → String
  | blocksUnreadable => "block read failed"
  | rejectedUnreadable => "bad block read failed"
  | pointersUnreadable => "pointer read failed"
  | diskFull => "disk full"
  | undecodable => "stored value cannot be decoded"
  | brokenLink block number parentNumber =>
    s!"block {block} at height {number.toNat} has parent at height {parentNumber.toNat}"
  | lockPoisoned => "lock poisoned"
  | noCanonicalHead => "chain store has no canonical head"
  | noGenesis network => s!"network {network} has no genesis preset and none is configured"
  | noSchedule network => s!"network {network} has no hard fork preset and none are configured"
  | badAddress text => s!"invalid rpc_addr {text}: invalid IP address syntax"
  | loggingInstalled => "Failed to set subscriber"

/-- How an operation fails. -/
inductive Failure where
  /-- It reports a fault. -/
  | fault (fault : Fault)
  /-- A 64-bit addition overflows. -/
  | overflow
deriving DecidableEq

/-- What is said when a 64-bit addition overflows. -/
def overflowMessage : String := "attempt to add with overflow"

/-- The next number, unless there is none. -/
def successor (n : UInt64) : Except Failure UInt64 :=
  if n.toNat + 1 < UInt64.size then .ok (n + 1) else .error .overflow

end ChainHead
