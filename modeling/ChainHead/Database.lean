import ChainHead.Ancestry
import ChainHead.Assoc
import ChainHead.Failure
import ChainHead.Request

/-!
# The database

Three trees of JSON texts: the blocks and the rejected blocks by hash, and the pointers.  What is
read back is decoded, and a text that does not decode would be a fault.

The pointers are written in one batch, in which an unset one is removed.  Without a head there are
no pointers at all.
-/

namespace ChainHead

/-- A stored map from keys to texts. -/
abbrev Tree (κ : Type) := Assoc κ String

/-- The stored blocks, rejected blocks and pointers. -/
structure Database where
  /-- The texts of the blocks. -/
  blocks : Tree Hash
  /-- The texts of the records of rejected blocks. -/
  badBlocks : Tree Hash
  /-- The texts of the blocks that the pointers name. -/
  pointers : Tree Pointer

namespace Database

/-- The database without content. -/
def empty : Database := ⟨.empty, .empty, .empty⟩

/-- What a stored text says. -/
def decode {α : Type} (read : Json.Reading α) (text : String) : Except Fault α :=
  match Json.decode read text with
  | .ok a => .ok a
  | .error _ => .error .undecodable

/-- What the text under a key says, if there is one. -/
def lookup {α κ : Type} [DecidableEq κ] (read : Json.Reading α) (tree : Tree κ) (key : κ) :
    Except Fault (Option α) :=
  match tree.get? key with
  | none => .ok none
  | some text => (decode read text).map some

/-- The block with a hash. -/
def block? (db : Database) (hash : Hash) : Except Fault (Option Block) :=
  lookup Block.form.read db.blocks hash

/-- The record of the rejected block with a hash. -/
def badBlock? (db : Database) (hash : Hash) : Except Fault (Option BadBlock) :=
  lookup BadBlock.form.read db.badBlocks hash

/-- The pointers, if any were written. -/
def heads? (db : Database) : Except Fault (Option Heads) := do
  match ← lookup Block.form.read db.pointers Pointer.head with
  | none => return none
  | some head =>
    let safe ← lookup Block.form.read db.pointers Pointer.safe
    let finalized ← lookup Block.form.read db.pointers Pointer.finalized
    return some { head, safe, finalized }

/-- What the database says about blocks. -/
def chain (db : Database) : Chain where
  block? hash := (db.block? hash).mapError Failure.fault
  badBlock? hash := (db.badBlock? hash).mapError Failure.fault

/-- Stores a block under its hash. -/
def insertBlock (db : Database) (b : Block) : Database :=
  { db with blocks := db.blocks.insert b.hash b.toJson.text }

/-- Stores the record of a rejected block under its hash. -/
def insertBadBlock (db : Database) (b : BadBlock) : Database :=
  { db with badBlocks := db.badBlocks.insert b.hash b.toJson.text }

/-- The batch that writes the pointers. -/
def headsBatch (h : Heads) : List (Assoc.Change Pointer String) :=
  [⟨.head, some h.head.toJson.text⟩,
   ⟨.safe, h.safe.map fun b => b.toJson.text⟩,
   ⟨.finalized, h.finalized.map fun b => b.toJson.text⟩]

/-- Writes the pointers. -/
def setHeads (db : Database) (h : Heads) : Database :=
  { db with pointers := db.pointers.apply (headsBatch h) }

/-- Stores the first block of the chain.  Pointers that are there stay, and otherwise they are set
to that block.  Gives the pointers to start from. -/
def initGenesis (db : Database) (b : Block) : Except Fault (Heads × Database) := do
  let db := db.insertBlock b
  match ← db.heads? with
  | some heads => return (heads, db)
  | none => return (.ofGenesis b, db.setHeads (.ofGenesis b))

/-- Removes everything. -/
def clear (_ : Database) : Database := empty

end Database

end ChainHead
