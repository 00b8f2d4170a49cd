import ChainHead.Json.Record

/-!
# Blocks and the pointers of the chain

A `Block` is the part of a header that head tracking needs.  `Heads` are the three pointers of the
chain, of which `safe` and `finalized` stay unset until the consensus client first names a block
for them.  A `BadBlock` records that block processing turned a block down.

Each of them is written as a JSON object and read by its form.
-/

namespace ChainHead

/-- The header fields of a block that place it in the chain. -/
structure Block where
  /-- Its hash. -/
  hash : Hash
  /-- Its height above the first block of the chain. -/
  number : UInt64
  /-- The hash of the block below it. -/
  parentHash : Hash
  /-- Its time in seconds. -/
  timestamp : UInt64
deriving DecidableEq, Inhabited

namespace Block

/-- Whether the block has no parent. -/
def isGenesis (b : Block) : Bool := b.number = 0

/-- How a block is read. -/
def form : Json.Form Block :=
  Block.mk <$> .required "hash" (Json.readBytes 32)
    <*> .required "number" Json.readQuantity
    <*> .required "parentHash" (Json.readBytes 32)
    <*> .required "timestamp" Json.readQuantity

/-- The JSON value of a block. -/
def toJson (b : Block) : Json := .obj [
  ("hash", Json.ofBytes b.hash),
  ("number", Json.ofQuantity b.number),
  ("parentHash", Json.ofBytes b.parentHash),
  ("timestamp", Json.ofQuantity b.timestamp)]

end Block

/-- The canonical pointers. -/
structure Heads where
  /-- The tip of the chain. -/
  head : Block
  /-- The block that is safe from reorganisation under honest majority, once one was named. -/
  safe : Option Block
  /-- The block that is never undone, once one was named. -/
  finalized : Option Block
deriving DecidableEq, Inhabited

namespace Heads

/-- The pointers of a chain that consists of its first block. -/
def ofGenesis (b : Block) : Heads := ⟨b, none, none⟩

/-- The hash of the safe block, zero while it is unset. -/
def safeHash (h : Heads) : Hash := (h.safe.map Block.hash).getD (.zero 32)

/-- The hash of the finalized block, zero while it is unset. -/
def finalizedHash (h : Heads) : Hash := (h.finalized.map Block.hash).getD (.zero 32)

/-- How the pointers are read. -/
def form : Json.Form Heads :=
  Heads.mk <$> .required "head" Block.form.read
    <*> .optional "safe" Block.form.read
    <*> .optional "finalized" Block.form.read

/-- The JSON value of the pointers. -/
def toJson (h : Heads) : Json := .obj [
  ("head", h.head.toJson),
  ("safe", Json.ofOption Block.toJson h.safe),
  ("finalized", Json.ofOption Block.toJson h.finalized)]

end Heads

/-- A block that block processing turned down. -/
structure BadBlock where
  /-- The hash of the block. -/
  hash : Hash
  /-- The last valid block below it, if one is known. -/
  latestValidAncestor : Option Hash
  /-- Why it was turned down. -/
  reason : String
deriving DecidableEq

namespace BadBlock

/-- How the record of a rejected block is read. -/
def form : Json.Form BadBlock :=
  BadBlock.mk <$> .required "hash" (Json.readBytes 32)
    <*> .optional "latestValidAncestor" (Json.readBytes 32)
    <*> .required "reason" Json.readString

/-- The JSON value of the record of a rejected block. -/
def toJson (b : BadBlock) : Json := .obj [
  ("hash", Json.ofBytes b.hash),
  ("latestValidAncestor", Json.ofOption Json.ofBytes b.latestValidAncestor),
  ("reason", .str b.reason)]

end BadBlock

end ChainHead
