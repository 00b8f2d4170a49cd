import ChainHead.Block
import ChainHead.Failure
import ChainHead.Keccak
import ChainHead.Payload.Built

/-!
# Blocks without transactions

The block that is built where no transactions are at hand, so that there always is something to
return.  Its hash is the Keccak-256 hash of what places it in the chain: the parent, its height and
time, the randomness, the fee recipient and the root of the parent beacon block, which counts as
zero where there is none.

On a parent at the greatest height there is no block, and to ask for its height overflows.
-/

namespace ChainHead

/-- The order for one attempt at a payload. -/
structure BuildOrder where
  /-- The block to stand on. -/
  parent : Block
  /-- What is asked of the block. -/
  attributes : PayloadAttributes
  /-- The number of attempts that the job made before. -/
  iteration : Nat
deriving DecidableEq

namespace BuildOrder

/-- The eight bytes of a word, the most significant one first. -/
def bigEndian (n : UInt64) : List UInt8 :=
  [(n >>> 56).toUInt8, (n >>> 48).toUInt8, (n >>> 40).toUInt8, (n >>> 32).toUInt8,
   (n >>> 24).toUInt8, (n >>> 16).toUInt8, (n >>> 8).toUInt8, n.toUInt8]

/-- The bytes whose hash is the hash of the block at the height `number`. -/
def preimage (order : BuildOrder) (number : UInt64) : List UInt8 :=
  order.parent.hash.toList
  ++ bigEndian number
  ++ bigEndian order.attributes.timestamp
  ++ order.attributes.prevRandao.toList
  ++ order.attributes.suggestedFeeRecipient.toList
  ++ (order.attributes.parentBeaconBlockRoot.getD (.zero 32)).toList

/-- The block without transactions. -/
def emptyBlock (order : BuildOrder) : Except Failure BuiltPayload := do
  let number ← successor order.parent.number
  return {
    parentHash := order.parent.hash
    feeRecipient := order.attributes.suggestedFeeRecipient
    prevRandao := order.attributes.prevRandao
    blockNumber := number
    timestamp := order.attributes.timestamp
    blockHash := Keccak.hash (order.preimage number)
    transactions := []
    withdrawals := order.attributes.withdrawals
    parentBeaconBlockRoot := order.attributes.parentBeaconBlockRoot
    blockValue := 0
    iteration := order.iteration }

end BuildOrder

end ChainHead
