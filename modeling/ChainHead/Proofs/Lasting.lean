import ChainHead.Proofs.Resolution
import ChainHead.Proofs.CommonAncestor
import ChainHead.Proofs.Engine.Run

/-!
# Definite answers last

A fork choice is left open only where a later block can still decide it.  So an answer that is
definite lasts while the chain grows: pointers that resolve go on resolving
(`Chain.Resolves.grow`), and what is refused is refused again for the same reason, with the same
last valid block if one was named, unless it fails then (`Chain.Upholds`,
`Chain.upholds_of_invalid`).  It may fail because the walk for the common ancestor gets further than
before and meets a parent at a wrong height.

`Database.resolve_insertBlocks` says so of a database that stores more blocks.
-/

namespace ChainHead

namespace Chain

variable {chain chain' : Chain} {state : ForkchoiceState} {heads : Heads} {ancestor descendant : Named}
  {latest : Option Hash} {refusal : Refusal}

/-! ## What is refused -/

/-- The outcome upholds a refusal: it refuses for the same reason and keeps a block that was named
as the last valid one, or it fails. -/
inductive Upholds (latest : Option Hash) (refusal : Refusal) : Except Failure Resolution → Prop where
  | refused {latest' : Option Hash} (hlatest : ∀ hash ∈ latest, hash ∈ latest') :
      Upholds latest refusal (.ok (.invalid latest' refusal))
  | failed (failure : Failure) : Upholds latest refusal (.error failure)

lemma Upholds.refl (latest : Option Hash) (refusal : Refusal) :
    Upholds latest refusal (.ok (.invalid latest refusal)) :=
  .refused fun _ h => h

/-- A pair that is refused stays refused, and the comparison still stops there. -/
lemma Checks.upholds (h : chain.Checks heads ancestor descendant) (hgrow : chain.GrowsTo chain')
    (hobjection : chain.objection? ancestor descendant = .ok (some (.invalid latest refusal))) :
    Upholds latest refusal (chain'.resolveBlocks heads) := by
  obtain ⟨hdenied, rfl, common, hcommon, rfl⟩ := exists_commonAncestor?_of_dispute hobjection
  have hobjection' : chain'.objection? ancestor descendant = _ :=
    dispute_of_denied (isAncestor?_grow hgrow hdenied)
  rw [(h.grow hgrow).resolveBlocks_eq]
  · rw [hobjection']
    -- the walk for the common ancestor may get further than before, and fail there
    cases hcommon' : chain'.commonAncestor? ancestor.block descendant.block with
    | error failure => exact .failed failure
    | ok common' =>
      refine .refused ?_
      rintro _ hc
      obtain ⟨c, rfl, rfl⟩ := Option.map_eq_some_iff.1 hc
      cases hcommon'.symm.trans (commonAncestor?_grow hgrow hcommon)
      rfl
  · rw [hobjection']
    cases chain'.commonAncestor? ancestor.block descendant.block <;> exact nofun

/-- A refusal is upheld while the chain grows and rejects no other blocks. -/
theorem upholds_of_invalid (hgrow : chain.GrowsTo chain') (hbad : chain'.badBlock? = chain.badBlock?)
    (h : chain.resolve state = .ok (.invalid latest refusal)) :
    Upholds latest refusal (chain'.resolve state) := by
  have hends := chain.ends state
  generalize chain.resolve state = result at h hends
  cases hends with
  | zeroHead hzero =>
    cases h
    rw [Chain.resolve, if_pos hzero]
    exact .refl _ _
  | rejectedHead hne hrejected =>
    cases h
    rw [Chain.resolve, if_neg hne, hbad, hrejected]
    exact .refl _ _
  | missing _ _ _ => cases h
  | unreadable _ => cases h
  | @compared heads hnames =>
    rw [(hnames.grow hgrow hbad).resolve_eq]
    obtain ⟨ancestor, descendant, hchecks, hobjection⟩ := exists_checks h (by simp)
    exact hchecks.upholds hgrow hobjection

end Chain

namespace Database

variable {db : Database} {blocks : List Block}

/-! ## More blocks -/

/-- Stores blocks one after the other. -/
def insertBlocks (db : Database) (blocks : List Block) : Database := blocks.foldl insertBlock db

/-- Only what is found under their own hashes changes. -/
lemma block?_insertBlocks_of_ne (db : Database) {hash : Hash} (h : ∀ b ∈ blocks, hash ≠ b.hash) :
    (db.insertBlocks blocks).block? hash = db.block? hash := by
  induction blocks generalizing db with
  | nil => rfl
  | cons b blocks ih =>
    rw [List.forall_mem_cons] at h
    show ((db.insertBlock b).insertBlocks blocks).block? hash = _
    rw [ih _ h.2, block?_insertBlock, if_neg h.1]

lemma badBlock?_insertBlocks (db : Database) (blocks : List Block) :
    (db.insertBlocks blocks).chain.badBlock? = db.chain.badBlock? := by
  induction blocks generalizing db with
  | nil => rfl
  | cons b blocks ih => exact ih (db.insertBlock b)

/-- Blocks under new hashes replace nothing. -/
lemma growsTo_insertBlocks (hnew : ∀ b ∈ blocks, db.block? b.hash = .ok none) :
    db.chain.GrowsTo (db.insertBlocks blocks).chain := by
  intro hash c hc
  rw [chain_block?_eq_some_iff] at hc ⊢
  rw [block?_insertBlocks_of_ne db, hc]
  rintro b hb rfl
  cases (hnew b hb).symm.trans hc

/-- Storing blocks under new hashes leaves pointers resolved, and it turns a refusal neither into an
approval nor into an open answer.  If the fork choice is refused again then for the same reason, and
the last valid block is the same if one was named. -/
theorem resolve_insertBlocks (hnew : ∀ b ∈ blocks, db.block? b.hash = .ok none)
    (state : ForkchoiceState) :
    (∀ heads, db.chain.resolve state = .ok (.resolved heads) →
      (db.insertBlocks blocks).chain.resolve state = .ok (.resolved heads)) ∧
    ∀ latest refusal, db.chain.resolve state = .ok (.invalid latest refusal) →
      (∀ heads, (db.insertBlocks blocks).chain.resolve state ≠ .ok (.resolved heads)) ∧
      (∀ pointer, (db.insertBlocks blocks).chain.resolve state ≠ .ok (.unknown pointer)) ∧
      ∀ latest' refusal',
        (db.insertBlocks blocks).chain.resolve state = .ok (.invalid latest' refusal') →
          refusal' = refusal ∧ ∀ hash, latest = some hash → latest' = some hash := by
  have hgrow := growsTo_insertBlocks hnew
  have hbad := db.badBlock?_insertBlocks blocks
  constructor
  · intro heads hresolved
    rw [Chain.resolve_eq_resolved_iff] at hresolved ⊢
    exact hresolved.grow hgrow (congrFun hbad _)
  · intro latest refusal hinvalid
    have hupholds := Chain.upholds_of_invalid hgrow hbad hinvalid
    generalize (db.insertBlocks blocks).chain.resolve state = result at hupholds ⊢
    cases hupholds with
    | refused hlatest =>
      refine ⟨nofun, nofun, ?_⟩
      rintro _ _ ⟨⟩
      exact ⟨rfl, fun hash h => hlatest hash h⟩
    | failed failure => exact ⟨nofun, nofun, nofun⟩

theorem resolve_insertBlocks_rivalBlock :
    (∀ b ∈ [Engine.rivalBlock], Engine.twoBlocks.store.database.block? b.hash = .ok none) ∧
      Engine.twoBlocks.store.database.chain.resolve Engine.secondFinalized.request =
        .ok (.resolved Engine.secondFinalized) ∧
      (Engine.twoBlocks.store.database.insertBlocks [Engine.rivalBlock]).chain.resolve
        Engine.secondFinalized.request = .ok (.resolved Engine.secondFinalized) := by
  have hnew : ∀ b ∈ [Engine.rivalBlock], Engine.twoBlocks.store.database.block? b.hash = .ok none :=
    List.forall_mem_singleton.2 Engine.block?_rivalBlock
  have hresolved : Engine.twoBlocks.store.database.chain.resolve Engine.secondFinalized.request =
      .ok (.resolved Engine.secondFinalized) :=
    Chain.resolve_eq_resolved_iff.2 Engine.twoBlocks_resolves_second
  exact ⟨hnew, hresolved,
    (resolve_insertBlocks hnew Engine.secondFinalized.request).1 _ hresolved⟩

end Database

end ChainHead
