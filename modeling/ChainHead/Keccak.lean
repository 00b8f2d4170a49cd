import ChainHead.Bytes

/-!
# Keccak-256

The hash function of the chain: the sponge over the permutation of 25 lanes of 64 bits, with 17
lanes taken up at a time, the padding that starts with the byte `01`, and 32 bytes of output.

A lane has two coordinates from zero to four, and lane `(x, y)` is number `x + 5 y`.  Bytes fill a
lane from its low end.
-/

namespace ChainHead.Keccak

/-- The lanes of the sponge. -/
abbrev State := Vector UInt64 25

namespace State

/-- The lane at two coordinates, each taken modulo five. -/
def lane (s : State) (x y : Nat) : UInt64 :=
  s.get ⟨x % 5 + 5 * (y % 5), by have := Nat.mod_lt x (by omega : 5 > 0); have := Nat.mod_lt y (by omega : 5 > 0); omega⟩

/-- The lanes given by their coordinates. -/
def ofLanes (f : Nat → Nat → UInt64) : State := Vector.ofFn fun i => f (i.val % 5) (i.val / 5)

end State

/-- A lane turned to the left. -/
def rotate (lane : UInt64) (bits : Nat) : UInt64 :=
  let bits := bits % 64
  if bits = 0 then lane
  else (lane <<< UInt64.ofNat bits) ||| (lane >>> UInt64.ofNat (64 - bits))

/-- How far each lane is turned, by number. -/
def rotations : Vector Nat 25 := #v[
  0, 1, 62, 28, 27,
  36, 44, 6, 55, 20,
  3, 10, 43, 25, 39,
  41, 45, 15, 21, 8,
  18, 2, 61, 56, 14]

/-- What each round adds to the first lane. -/
def roundConstants : List UInt64 := [
  0x0000000000000001, 0x0000000000008082, 0x800000000000808A, 0x8000000080008000,
  0x000000000000808B, 0x0000000080000001, 0x8000000080008081, 0x8000000000008009,
  0x000000000000008A, 0x0000000000000088, 0x0000000080008009, 0x000000008000000A,
  0x000000008000808B, 0x800000000000008B, 0x8000000000008089, 0x8000000000008003,
  0x8000000000008002, 0x8000000000000080, 0x000000000000800A, 0x800000008000000A,
  0x8000000080008081, 0x8000000000008080, 0x0000000080000001, 0x8000000080008008]

/-- Adds to each lane the parities of two columns. -/
def mixColumns (s : State) : State :=
  let parity := Vector.ofFn fun x : Fin 5 =>
    s.lane x.val 0 ^^^ s.lane x.val 1 ^^^ s.lane x.val 2 ^^^ s.lane x.val 3 ^^^ s.lane x.val 4
  let column (x : Nat) : UInt64 := parity.get ⟨x % 5, Nat.mod_lt x (by omega)⟩
  .ofLanes fun x y => s.lane x y ^^^ column (x + 4) ^^^ rotate (column (x + 1)) 1

/-- Turns each lane and moves it to its new place. -/
def turnAndMove (s : State) : State :=
  let turned := Vector.ofFn fun i : Fin 25 => rotate (s.get i) (rotations.get i)
  .ofLanes fun x y => State.lane turned (x + 3 * y) x

/-- Adds to each lane a product of its neighbours in the row. -/
def mixRows (s : State) : State :=
  .ofLanes fun x y => s.lane x y ^^^ (~~~ s.lane (x + 1) y &&& s.lane (x + 2) y)

/-- One round of the permutation. -/
def round (s : State) (constant : UInt64) : State :=
  let s := mixRows (turnAndMove (mixColumns s))
  s.set 0 (s.get 0 ^^^ constant)

/-- The permutation. -/
def permute (s : State) : State := roundConstants.foldl round s

/-! ## The sponge -/

/-- The lane whose bytes, from its low end, are these. -/
def laneOfBytes (bytes : List UInt8) : UInt64 :=
  bytes.foldr (fun b lane => (lane <<< 8) ||| b.toUInt64) 0

/-- The bytes of a lane from its low end. -/
def bytesOfLane (lane : UInt64) : List UInt8 :=
  [lane.toUInt8, (lane >>> 8).toUInt8, (lane >>> 16).toUInt8, (lane >>> 24).toUInt8,
   (lane >>> 32).toUInt8, (lane >>> 40).toUInt8, (lane >>> 48).toUInt8, (lane >>> 56).toUInt8]

/-- The number of bytes that are taken up at a time. -/
def rate : Nat := 136

/-- What follows a message to fill its last block. -/
def padding (length : Nat) : List UInt8 :=
  let missing := rate - length % rate
  if missing = 1 then [0x81] else 0x01 :: List.replicate (missing - 2) 0x00 ++ [0x80]

/-- Takes up one block. -/
def absorb (s : State) (block : List UInt8) : State :=
  permute (Vector.ofFn fun i =>
    s.get i ^^^ laneOfBytes ((block.drop (8 * i.val)).take 8))

/-- Takes up a list of whole blocks. -/
def absorbAll (s : State) : Nat → List UInt8 → State
  | 0, _ => s
  | blocks + 1, bytes => absorbAll (absorb s (bytes.take rate)) blocks (bytes.drop rate)

/-- The hash of a message. -/
def hash (message : List UInt8) : Hash :=
  let padded := message ++ padding message.length
  let s := absorbAll (Vector.replicate 25 0) (padded.length / rate) padded
  ⟨bytesOfLane (s.lane 0 0) ++ bytesOfLane (s.lane 1 0) ++ bytesOfLane (s.lane 2 0)
    ++ bytesOfLane (s.lane 3 0), by simp [bytesOfLane]⟩

end ChainHead.Keccak
