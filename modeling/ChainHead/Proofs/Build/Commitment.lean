import ChainHead.Proofs.Build.Bookkeeping

/-!
# What the hash of a block commits to

The bytes that are hashed for a block without transactions are parts of fixed lengths, one behind
the other, so they split in one way only (`BuildOrder.preimage_inj`).  Payloads that differ in what
is written there are therefore hashed from different bytes (`BuildOrder.emptyBlock_commits`).

Two things are not written there.  A missing root of the parent beacon block stands as zero, and the
withdrawals have no part of their own, so payloads that differ in these alone are hashed from the
same bytes (`BuildOrder.emptyBlock_not_committed`).
-/

namespace ChainHead

/-- The payloads are the same but for their withdrawals, their hashes and their rounds, where a
missing root of the parent beacon block counts as zero. -/
structure BuiltPayload.Alike (p q : BuiltPayload) : Prop where
  parentHash : p.parentHash = q.parentHash
  blockNumber : p.blockNumber = q.blockNumber
  timestamp : p.timestamp = q.timestamp
  feeRecipient : p.feeRecipient = q.feeRecipient
  prevRandao : p.prevRandao = q.prevRandao
  parentBeaconBlockRoot :
    p.parentBeaconBlockRoot.getD (.zero 32) = q.parentBeaconBlockRoot.getD (.zero 32)
  transactions : p.transactions = q.transactions
  blockValue : p.blockValue = q.blockValue

namespace BuildOrder

variable {a b order : BuildOrder} {m n : UInt64} {p q : BuiltPayload}

lemma length_bigEndian (n : UInt64) : (bigEndian n).length = 8 := rfl

/-- The bytes tell all their parts.  The parts are taken off from the end, each by its length. -/
lemma preimage_inj (h : a.preimage m = b.preimage n) :
    a.parent.hash = b.parent.hash ∧ m = n ∧ a.attributes.timestamp = b.attributes.timestamp ∧
      a.attributes.prevRandao = b.attributes.prevRandao ∧
      a.attributes.suggestedFeeRecipient = b.attributes.suggestedFeeRecipient ∧
      a.attributes.parentBeaconBlockRoot.getD (.zero 32) =
        b.attributes.parentBeaconBlockRoot.getD (.zero 32) := by
  unfold preimage at h
  obtain ⟨h, hroot⟩ := List.append_inj' h (by simp only [Bytes.length_toList])
  obtain ⟨h, hrecipient⟩ := List.append_inj' h (by simp only [Bytes.length_toList])
  obtain ⟨h, hrandao⟩ := List.append_inj' h (by simp only [Bytes.length_toList])
  obtain ⟨h, htime⟩ := List.append_inj' h (by simp only [length_bigEndian])
  obtain ⟨hparent, hnumber⟩ := List.append_inj' h (by simp only [length_bigEndian])
  exact ⟨Bytes.ext hparent, bigEndian_injective hnumber, bigEndian_injective htime,
    Bytes.ext hrandao, Bytes.ext hrecipient, Bytes.ext hroot⟩

/-- The block without transactions, as it was ordered. -/
lemma emptyBlock_eq_ok_iff :
    order.emptyBlock = .ok p ↔ ∃ number, order.parent.number.toNat + 1 = number.toNat ∧
      p = {
        parentHash := order.parent.hash
        feeRecipient := order.attributes.suggestedFeeRecipient
        prevRandao := order.attributes.prevRandao
        blockNumber := number
        timestamp := order.attributes.timestamp
        blockHash := Keccak.hash (order.preimage number)
        transactions := []
        withdrawals := order.attributes.withdrawals
        parentBeaconBlockRoot := order.attributes.parentBeaconBlockRoot
        blockValue := 0
        iteration := order.iteration } := by
  simp only [emptyBlock, bind_eq_ok_iff, successor_eq_ok_iff]
  exact exists_congr fun number => and_congr_right fun _ =>
    ⟨fun h => (Except.ok.inj h).symm, fun h => congrArg Except.ok h.symm⟩

lemma alike_of_preimage_eq (ha : a.emptyBlock = .ok p) (hb : b.emptyBlock = .ok q)
    (h : a.preimage p.blockNumber = b.preimage q.blockNumber) : p.Alike q := by
  obtain ⟨hparent, hnumber, htime, hrandao, hrecipient, hroot⟩ := preimage_inj h
  obtain ⟨m, -, rfl⟩ := emptyBlock_eq_ok_iff.1 ha
  obtain ⟨n, -, rfl⟩ := emptyBlock_eq_ok_iff.1 hb
  exact ⟨hparent, hnumber, htime, hrecipient, hrandao, hroot, rfl, rfl⟩

/-! ## Orders that differ -/

/-- An order for a block without withdrawals and without a root of the parent beacon block. -/
def bareOrder : BuildOrder where
  parent := ⟨.zero 32, 0, .zero 32, 0⟩
  attributes := ⟨12, .zero 32, .zero 20, none, none⟩
  iteration := 0

/-- The same order with one withdrawal. -/
def withdrawingOrder : BuildOrder :=
  { bareOrder with attributes.withdrawals := some [⟨0, 0, .zero 20, 1⟩] }

/-- The same order with a root of zero. -/
def rootedOrder : BuildOrder :=
  { bareOrder with attributes.parentBeaconBlockRoot := some (.zero 32) }

/-- The same order for a block at the greatest height. -/
def highOrder : BuildOrder :=
  { bareOrder with parent.number := 0xfffffffffffffffe }

/-! ## What the bytes tell -/

/-- On parents below the greatest height there are blocks without transactions.  Unless their
payloads are alike, they are hashed from different bytes. -/
theorem emptyBlock_commits (ha : a.parent.HasRoom) (hb : b.parent.HasRoom) :
    ∃ p q, a.emptyBlock = .ok p ∧ b.emptyBlock = .ok q ∧
      p.blockHash = Keccak.hash (a.preimage p.blockNumber) ∧
      q.blockHash = Keccak.hash (b.preimage q.blockNumber) ∧
      (¬ p.Alike q → a.preimage p.blockNumber ≠ b.preimage q.blockNumber) := by
  obtain ⟨p, hp⟩ := a.exists_emptyBlock_iff.2 ha
  obtain ⟨q, hq⟩ := b.exists_emptyBlock_iff.2 hb
  refine ⟨p, q, hp, hq, ?_, ?_, mt (alike_of_preimage_eq hp hq)⟩
  · obtain ⟨m, -, rfl⟩ := emptyBlock_eq_ok_iff.1 hp
    rfl
  · obtain ⟨n, -, rfl⟩ := emptyBlock_eq_ok_iff.1 hq
    rfl

/-- The first block and the one at the greatest height differ in their numbers. -/
theorem emptyBlock_commits_highOrder :
    bareOrder.parent.HasRoom ∧ highOrder.parent.HasRoom ∧
      ∃ p q, bareOrder.emptyBlock = .ok p ∧ highOrder.emptyBlock = .ok q ∧
        p.blockHash = Keccak.hash (bareOrder.preimage p.blockNumber) ∧
        q.blockHash = Keccak.hash (highOrder.preimage q.blockNumber) ∧
        ¬ p.Alike q ∧ bareOrder.preimage p.blockNumber ≠ highOrder.preimage q.blockNumber := by
  have hbare : bareOrder.parent.HasRoom := by unfold Block.HasRoom; decide
  have hhigh : highOrder.parent.HasRoom := by unfold Block.HasRoom; decide
  obtain ⟨p, q, hp, hq, hphash, hqhash, hcommits⟩ := emptyBlock_commits hbare hhigh
  have hdiffer : ¬ p.Alike q := by
    intro halike
    obtain ⟨m, hm, rfl⟩ := emptyBlock_eq_ok_iff.1 hp
    obtain ⟨n, hn, rfl⟩ := emptyBlock_eq_ok_iff.1 hq
    have hnumber : m = n := halike.blockNumber
    rw [← hnumber, ← hm] at hn
    exact absurd hn (by decide)
  exact ⟨hbare, hhigh, p, q, hp, hq, hphash, hqhash, hdiffer, hcommits hdiffer⟩

/-- Payloads that differ in their withdrawals, or in that one has a root of zero and the other one
has none, are hashed from the same bytes. -/
theorem emptyBlock_not_committed :
    ∃ p q r, bareOrder.emptyBlock = .ok p ∧ withdrawingOrder.emptyBlock = .ok q ∧
      rootedOrder.emptyBlock = .ok r ∧
      p.withdrawals ≠ q.withdrawals ∧
      bareOrder.preimage p.blockNumber = withdrawingOrder.preimage q.blockNumber ∧
      p.parentBeaconBlockRoot ≠ r.parentBeaconBlockRoot ∧
      bareOrder.preimage p.blockNumber = rootedOrder.preimage r.blockNumber :=
  ⟨_, _, _, rfl, rfl, rfl, nofun, rfl, nofun, rfl⟩

end BuildOrder

end ChainHead
