import ChainHead.Block
import ChainHead.Failure

/-!
# Ancestry

A `Chain` answers which block and which record of a rejected block is stored under a hash.  From a
block one goes down to its parent, which has to be stored at exactly the height below.  All walks
are made of that step, so each is bounded by the height of the block it starts at.

* `Chain.parent?` goes down one step; there is none below height zero and none into a gap.
* `Chain.ancestorAt?` goes down to a height.
* `Chain.isAncestor?` compares what stands there with a block; a gap leaves it open.
* `Chain.commonAncestor?` goes down from two blocks at once until they meet.

A parent at the greatest height has no height above it, and to ask whether it is one below its
child overflows.
-/

namespace ChainHead

/-- What is stored about blocks, or why it cannot be told. -/
structure Chain where
  /-- The block with a hash. -/
  block? : Hash → Except Failure (Option Block)
  /-- The record of the rejected block with a hash. -/
  badBlock? : Hash → Except Failure (Option BadBlock)

namespace Chain

/-- The stored parent of a block. -/
def parent? (chain : Chain) (b : Block) : Except Failure (Option Block) := do
  if b.isGenesis then return none
  match ← chain.block? b.parentHash with
  | none => return none
  | some parent =>
    if (← successor parent.number) = b.number then return some parent
    else throw (.fault (.brokenLink b.hash b.number parent.number))

/-- The block a number of steps below a block. -/
def descend (chain : Chain) : Nat → Block → Except Failure (Option Block)
  | 0, b => .ok (some b)
  | steps + 1, b => do
    match ← chain.parent? b with
    | some parent => chain.descend steps parent
    | none => return none

/-- The ancestor of a block at a height, if the height is not above the block and no gap is met on
the way. -/
def ancestorAt? (chain : Chain) (b : Block) (number : UInt64) : Except Failure (Option Block) :=
  if b.number < number then .ok none
  else chain.descend (b.number.toNat - number.toNat) b

/-- Whether a block is another one or one of its ancestors; unset where a gap leaves it open. -/
def isAncestor? (chain : Chain) (ancestor descendant : Block) : Except Failure (Option Bool) := do
  if descendant.number < ancestor.number then return some false
  let found ← chain.ancestorAt? descendant ancestor.number
  return found.map fun b => b.hash = ancestor.hash

/-- The block at which two walks from one height meet, in at most so many steps. -/
def meet (chain : Chain) : Nat → Block → Block → Except Failure (Option Block)
  | 0, a, b => .ok (if a.hash = b.hash then some a else none)
  | steps + 1, a, b => do
    if a.hash = b.hash then return some a
    let below ← chain.parent? a
    let below' ← chain.parent? b
    match below, below' with
    | some a, some b => chain.meet steps a b
    | _, _ => return none

/-- The highest block that two blocks both descend from, or are. -/
def commonAncestor? (chain : Chain) (a b : Block) : Except Failure (Option Block) := do
  let height := min a.number b.number
  let lowered ← chain.ancestorAt? a height
  let lowered' ← chain.ancestorAt? b height
  match lowered, lowered' with
  | some a, some b => chain.meet height.toNat a b
  | _, _ => return none

end Chain

end ChainHead
