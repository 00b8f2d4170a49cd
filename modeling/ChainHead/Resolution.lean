import ChainHead.Ancestry
import ChainHead.Request

/-!
# Resolving a fork choice

A fork choice names blocks by hash.  `Chain.resolve` looks them up and checks that the finalized
block, the safe block and the head lie on one branch in this order.  The checks are, in order:

1. a head of zero is refused, and so is a head that block processing turned down;
2. the head, the safe and the finalized block must be stored, where zero stands for none;
3. finalized must be an ancestor of head, safe of head, and finalized of safe.

What is missing makes the answer unknown, and so does a gap below the later block of a pair: either
may still arrive.
-/

namespace ChainHead

/-- Why a fork choice can never become canonical. -/
inductive Refusal where
  /-- The head is zero. -/
  | zeroHead
  /-- The head was turned down for this reason. -/
  | rejectedHead (reason : String)
  /-- Of two of the named blocks the earlier one does not lie below the later. -/
  | notAncestor (ancestor : Pointer) (ancestorHash : Hash) (descendant : Pointer)
      (descendantHash : Hash)
  /-- A finalized block is set, and the request names none. -/
  | finalizedUnset
  /-- A finalized block is set, and the request names no safe block. -/
  | safeUnset
  /-- The finalized block would leave the branch of the one that is set. -/
  | finalizedMoved (requested current : Hash)
deriving DecidableEq

/-- The wording of a refusal. -/
def Refusal.message : Refusal → String
  | zeroHead => "Received zero hash as forkchoice head"
  | rejectedHead reason => s!"links to previously rejected block: {reason}"
  | notAncestor ancestor ancestorHash descendant descendantHash =>
    s!"{ancestor.name} block {ancestorHash} is not an ancestor of {descendant.name} block {descendantHash}"
  | finalizedUnset => "finalized block hash cannot be zero once set"
  | safeUnset => "safe block hash cannot be zero once finalized is set"
  | finalizedMoved requested current =>
    s!"finalized block {requested} does not descend from finalized block {current}"

/-- What a fork choice resolves to. -/
inductive Resolution where
  /-- A block is not known yet. -/
  | unknown (pointer : Pointer)
  /-- The blocks can never be canonical together; with the last valid block, if it is known. -/
  | invalid (latestValidHash : Option Hash) (refusal : Refusal)
  /-- The blocks lie on one branch. -/
  | resolved (heads : Heads)
deriving DecidableEq

/-- What a hash that may be zero refers to. -/
inductive Reference where
  /-- No block. -/
  | unset
  /-- A block that is not stored. -/
  | missing
  /-- A stored block. -/
  | known (block : Block)

namespace Reference

/-- The block, if there is one. -/
def block? : Reference → Option Block
  | known b => some b
  | _ => none

end Reference

namespace Chain

/-- What a hash refers to; zero refers to no block. -/
def reference (chain : Chain) (hash : Hash) : Except Failure Reference := do
  if hash = .zero 32 then return .unset
  match ← chain.block? hash with
  | some b => return .known b
  | none => return .missing

/-- A block and the pointer that names it. -/
structure Named where
  /-- The pointer. -/
  pointer : Pointer
  /-- The block. -/
  block : Block

/-- What speaks against one block being an ancestor of another, if anything does. -/
def objection? (chain : Chain) (ancestor descendant : Named) :
    Except Failure (Option Resolution) := do
  match ← chain.isAncestor? ancestor.block descendant.block with
  | some true => return none
  | none => return some (.unknown descendant.pointer)
  | some false =>
    let common ← chain.commonAncestor? ancestor.block descendant.block
    return some (.invalid (common.map Block.hash)
      (.notAncestor ancestor.pointer ancestor.block.hash descendant.pointer descendant.block.hash))

/-- The first objection against pairs of blocks that are both set. -/
def firstObjection? (chain : Chain) :
    List (Option Named × Option Named) → Except Failure (Option Resolution)
  | [] => .ok none
  | (some ancestor, some descendant) :: rest => do
    match ← chain.objection? ancestor descendant with
    | some objection => return some objection
    | none => chain.firstObjection? rest
  | _ :: rest => chain.firstObjection? rest

/-- Whether the blocks lie on one branch. -/
def resolveBlocks (chain : Chain) (heads : Heads) : Except Failure Resolution := do
  let head : Named := ⟨.head, heads.head⟩
  let safe := heads.safe.map (Named.mk .safe)
  let finalized := heads.finalized.map (Named.mk .finalized)
  match ← chain.firstObjection? [(finalized, some head), (safe, some head), (finalized, safe)] with
  | some objection => return objection
  | none => return .resolved heads

/-- What a fork choice resolves to. -/
def resolve (chain : Chain) (state : ForkchoiceState) : Except Failure Resolution := do
  if state.headBlockHash = .zero 32 then return .invalid none .zeroHead
  if let some bad ← chain.badBlock? state.headBlockHash then
    return .invalid bad.latestValidAncestor (.rejectedHead bad.reason)
  match ← chain.block? state.headBlockHash with
  | none => return .unknown .head
  | some head =>
    match ← chain.reference state.safeBlockHash with
    | .missing => return .unknown .safe
    | safe =>
      match ← chain.reference state.finalizedBlockHash with
      | .missing => return .unknown .finalized
      | finalized => chain.resolveBlocks ⟨head, safe.block?, finalized.block?⟩

end Chain

end ChainHead
