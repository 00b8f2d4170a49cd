import ChainHead.Payload.Attributes

/-!
# Built payloads

A block as a payload job produced it.  The round of the job that made it is kept in memory and is
not part of the wire format.

The value of a block is a 256-bit number.  It is written like a quantity, and may be read from an
integer or from a text in base 16, 8, 2 or 10, as its marker says; underscores between the digits
are passed over.
-/

namespace ChainHead

/-- An amount of wei. -/
abbrev BlockValue := BitVec 256

namespace BlockValue

/-- The value of a digit in any base up to sixteen. -/
def digit? (base : Nat) (c : Char) : Option Nat :=
  (Hex.digit? c).bind fun d => if d < base then some d else none

/-- The value of a run of digits that fits into 256 bits; underscores are passed over. -/
def ofDigits? (base : Nat) : List Char → Nat → Option BlockValue
  | [], value => some (BitVec.ofNat 256 value)
  | '_' :: rest, value => ofDigits? base rest value
  | c :: rest, value => do
    let d ← digit? base c
    if base * value + d < Nat.pow 2 256 then ofDigits? base rest (base * value + d) else none

/-- Reads the text of an amount. -/
def ofText? (s : String) : Option BlockValue :=
  match s.toList with
  | '0' :: 'x' :: rest | '0' :: 'X' :: rest => ofDigits? 16 rest 0
  | '0' :: 'o' :: rest | '0' :: 'O' :: rest => ofDigits? 8 rest 0
  | '0' :: 'b' :: rest | '0' :: 'B' :: rest => ofDigits? 2 rest 0
  | rest => ofDigits? 10 rest 0

/-- Reads an amount. -/
def read : Json.Reading BlockValue := Json.readWith fun
  | .str s => ofText? s
  | .num n => if 0 ≤ n ∧ n < UInt64.size then some (BitVec.ofNat 256 n.toNat) else none
  | _ => none

/-- The JSON value of an amount. -/
def toJson (v : BlockValue) : Json := .str (String.ofList ('0' :: 'x' :: Hex.ofNat v.toNat))

end BlockValue

/-- A block that a payload job produced. -/
structure BuiltPayload where
  /-- The block it stands on. -/
  parentHash : Hash
  /-- The account that receives the fees. -/
  feeRecipient : Address
  /-- The randomness of the beacon chain. -/
  prevRandao : Hash
  /-- Its height. -/
  blockNumber : UInt64
  /-- Its time. -/
  timestamp : UInt64
  /-- Its hash. -/
  blockHash : Hash
  /-- Its transactions, each as it stands on the wire. -/
  transactions : List (List UInt8)
  /-- Its withdrawals. -/
  withdrawals : Option (List Withdrawal)
  /-- The root of the parent beacon block. -/
  parentBeaconBlockRoot : Option Hash
  /-- The fees it pays. -/
  blockValue : BlockValue
  /-- The round of its job that produced it. -/
  iteration : Nat
deriving DecidableEq

namespace BuiltPayload

/-- How a payload is read; its round is the first. -/
def form : Json.Form BuiltPayload :=
  (fun parentHash feeRecipient prevRandao blockNumber timestamp blockHash transactions withdrawals
      parentBeaconBlockRoot blockValue =>
    { parentHash, feeRecipient, prevRandao, blockNumber, timestamp, blockHash, transactions,
      withdrawals, parentBeaconBlockRoot, blockValue, iteration := 0 })
    <$> .required "parentHash" (Json.readBytes 32)
    <*> .required "feeRecipient" (Json.readBytes 20)
    <*> .required "prevRandao" (Json.readBytes 32)
    <*> .required "blockNumber" Json.readQuantity
    <*> .required "timestamp" Json.readQuantity
    <*> .required "blockHash" (Json.readBytes 32)
    <*> .required "transactions" (Json.readList Json.readByteString)
    <*> .trailing "withdrawals" (Json.readList Withdrawal.form.read)
    <*> .trailing "parentBeaconBlockRoot" (Json.readBytes 32)
    <*> .required "blockValue" BlockValue.read

/-- The JSON value of a payload. -/
def toJson (p : BuiltPayload) : Json := .obj <|
  [("parentHash", Json.ofBytes p.parentHash),
   ("feeRecipient", Json.ofBytes p.feeRecipient),
   ("prevRandao", Json.ofBytes p.prevRandao),
   ("blockNumber", Json.ofQuantity p.blockNumber),
   ("timestamp", Json.ofQuantity p.timestamp),
   ("blockHash", Json.ofBytes p.blockHash),
   ("transactions", .arr (p.transactions.map fun t => .str (Json.byteStringText t)))]
  ++ Json.fieldIfSet "withdrawals" Withdrawal.listToJson p.withdrawals
  ++ Json.fieldIfSet "parentBeaconBlockRoot" Json.ofBytes p.parentBeaconBlockRoot
  ++ [("blockValue", BlockValue.toJson p.blockValue)]

end BuiltPayload

end ChainHead
