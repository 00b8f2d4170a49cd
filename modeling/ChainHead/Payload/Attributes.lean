import ChainHead.Json.Record

/-!
# Payload attributes

What the consensus client asks of a block that is to be built.  Withdrawals and the root of the
parent beacon block came with later versions of the protocol.  Which of them a request has to carry
depends on the version it arrives on, so here both may be unset; an unset one is not written.
-/

namespace ChainHead

/-- A transfer from the beacon chain to an account. -/
structure Withdrawal where
  /-- Its position among all withdrawals. -/
  index : UInt64
  /-- The validator whose balance is withdrawn. -/
  validatorIndex : UInt64
  /-- The account that receives it. -/
  address : Address
  /-- The amount in gwei. -/
  amount : UInt64
deriving DecidableEq

namespace Withdrawal

/-- How a withdrawal is read. -/
def form : Json.Form Withdrawal :=
  Withdrawal.mk <$> .required "index" Json.readQuantity
    <*> .required "validatorIndex" Json.readQuantity
    <*> .required "address" (Json.readBytes 20)
    <*> .required "amount" Json.readQuantity

/-- The JSON value of a withdrawal. -/
def toJson (w : Withdrawal) : Json := .obj [
  ("index", Json.ofQuantity w.index),
  ("validatorIndex", Json.ofQuantity w.validatorIndex),
  ("address", Json.ofBytes w.address),
  ("amount", Json.ofQuantity w.amount)]

/-- The JSON value of a list of withdrawals. -/
def listToJson (ws : List Withdrawal) : Json := .arr (ws.map toJson)

end Withdrawal

/-- What is asked of a block that is to be built. -/
structure PayloadAttributes where
  /-- The time of the block. -/
  timestamp : UInt64
  /-- The randomness of the beacon chain. -/
  prevRandao : Hash
  /-- The account that is to receive the fees. -/
  suggestedFeeRecipient : Address
  /-- The withdrawals of the block. -/
  withdrawals : Option (List Withdrawal)
  /-- The root of the parent beacon block. -/
  parentBeaconBlockRoot : Option Hash
deriving DecidableEq

namespace PayloadAttributes

/-- How attributes are read. -/
def form : Json.Form PayloadAttributes :=
  PayloadAttributes.mk <$> .required "timestamp" Json.readQuantity
    <*> .required "prevRandao" (Json.readBytes 32)
    <*> .required "suggestedFeeRecipient" (Json.readBytes 20)
    <*> .trailing "withdrawals" (Json.readList Withdrawal.form.read)
    <*> .trailing "parentBeaconBlockRoot" (Json.readBytes 32)

/-- The JSON value of attributes. -/
def toJson (a : PayloadAttributes) : Json := .obj <|
  [("timestamp", Json.ofQuantity a.timestamp),
   ("prevRandao", Json.ofBytes a.prevRandao),
   ("suggestedFeeRecipient", Json.ofBytes a.suggestedFeeRecipient)]
  ++ Json.fieldIfSet "withdrawals" Withdrawal.listToJson a.withdrawals
  ++ Json.fieldIfSet "parentBeaconBlockRoot" Json.ofBytes a.parentBeaconBlockRoot

end PayloadAttributes

end ChainHead
