import ChainHead.Database

/-!
# The store

What the engine reads and writes: a database behind switches that say which calls fail.  A call
that fails reads nothing and changes nothing.  A store may also be one that keeps no record of
rejected blocks, and then none is ever found.
-/

namespace ChainHead

/-- Which calls of a store fail. -/
structure StoreFaults where
  /-- Whether reading a block fails. -/
  blocks : Bool := false
  /-- Whether reading the record of a rejected block fails. -/
  badBlocks : Bool := false
  /-- Whether reading the pointers fails. -/
  pointers : Bool := false
  /-- Whether writing the pointers fails. -/
  writes : Bool := false
deriving DecidableEq

/-- A database as the engine meets it. -/
structure Store where
  /-- The database. -/
  database : Database := .empty
  /-- The calls that fail. -/
  faults : StoreFaults := {}
  /-- Whether rejected blocks are looked up at all. -/
  recordsBadBlocks : Bool := true

namespace Store

/-- What the store says about blocks. -/
def chain (s : Store) : Chain where
  block? hash :=
    if s.faults.blocks then .error (.fault .blocksUnreadable) else s.database.chain.block? hash
  badBlock? hash :=
    if ! s.recordsBadBlocks then .ok none
    else if s.faults.badBlocks then .error (.fault .rejectedUnreadable)
    else s.database.chain.badBlock? hash

/-- The pointers, if any were written. -/
def heads? (s : Store) : Except Fault (Option Heads) :=
  if s.faults.pointers then .error .pointersUnreadable else s.database.heads?

/-- Writes the pointers. -/
def setHeads (s : Store) (h : Heads) : Except Fault Store :=
  if s.faults.writes then .error .diskFull
  else .ok { s with database := s.database.setHeads h }

end Store

end ChainHead
