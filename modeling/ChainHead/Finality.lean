import ChainHead.Resolution

/-!
# Finality

Once a finalized block is set, a fork choice may only move it up its branch.  Nor may it leave the
finalized or the safe block unset.  `Chain.judge` holds a fork choice that resolves against the
pointers that are set.
-/

namespace ChainHead.Chain

/-- What speaks against moving the finalized block, if anything does. -/
def moveObjection? (chain : Chain) (current requested : Block) :
    Except Failure (Option Resolution) := do
  match ← chain.isAncestor? current requested with
  | some true => return none
  | none => return some (.unknown .finalized)
  | some false =>
    let common ← chain.commonAncestor? current requested
    return some (.invalid (common.map Block.hash) (.finalizedMoved requested.hash current.hash))

/-- What speaks against replacing pointers by others, if anything does. -/
def finalityObjection? (chain : Chain) (current new : Heads) :
    Except Failure (Option Resolution) :=
  match current.finalized with
  | none => .ok none
  | some finalized =>
    match new.finalized with
    | none => .ok (some (.invalid (some finalized.hash) .finalizedUnset))
    | some requested =>
      if new.safe.isNone then .ok (some (.invalid (some requested.hash) .safeUnset))
      else chain.moveObjection? finalized requested

/-- What a fork choice resolves to, given the pointers that are set. -/
def judge (chain : Chain) (current : Heads) (state : ForkchoiceState) :
    Except Failure Resolution := do
  match ← chain.resolve state with
  | .resolved new => return (← chain.finalityObjection? current new).getD (.resolved new)
  | other => return other

end ChainHead.Chain
