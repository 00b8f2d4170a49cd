import Mathlib.Logic.Relation
import ChainHead.Proofs.Engine.Request

/-!
# Runs

A run begins with an engine on a database that has just been given its first block
(`Engine.Fresh`).  Step by step (`Engine.Step`) it answers requests, blocks and records of rejected
blocks are stored, calls of the store begin or cease to fail, payload jobs work, and the engine is
started again from the pointers in the store.  No block replaces another one, and no request
overflows.

`Engine.Sound` is what holds in every state of a run: the pointers in memory are those on disk, and
the stored chain carries them.  It holds at the start, and each step keeps it (`Engine.Step.sound`).
-/

namespace ChainHead

/-- The fork choice that names the pointers, with zero for those that are unset. -/
def Heads.request (h : Heads) : ForkchoiceState := ⟨h.head.hash, h.safeHash, h.finalizedHash⟩

namespace Engine

variable {e e' : Engine}

/-! ## Steps -/

/-- The engine over another database. -/
def withDatabase (e : Engine) (db : Database) : Engine :=
  { e with store := { e.store with database := db } }

/-- While it can be read, a store finds what it found before its database has grown. -/
lemma withDatabase_growsTo {db : Database} (hread : e.store.faults.blocks = false)
    (hgrow : e.store.database.chain.GrowsTo db.chain) :
    e.store.chain.GrowsTo (e.withDatabase db).store.chain :=
  (e.store.chain_growsTo.trans hgrow).trans
    (Store.chain_growsTo_of_readable (s := (e.withDatabase db).store) hread)

lemma withDatabase_badBlock? {db : Database} (h : db.badBlocks = e.store.database.badBlocks) :
    (e.withDatabase db).store.chain.badBlock? = e.store.chain.badBlock? := by
  funext hash
  simp only [withDatabase, Store.chain, Database.chain, Database.badBlock?, h]

/-- What may happen to an engine and to the store below it. -/
inductive Step (e : Engine) : Engine → Prop where
  /-- A request is answered. -/
  | request (v : Version) (param : ForkchoiceParam) (attributes : Option PayloadAttributes)
      (hanswer : (e.forkchoiceUpdated v param attributes).answer ≠ .overflow) :
      Step e (e.forkchoiceUpdated v param attributes).after
  /-- A block is stored that replaces no other. -/
  | insertBlock (b : Block) (hb : e.store.database.Admits b) :
      Step e (e.withDatabase (e.store.database.insertBlock b))
  /-- A record of a rejected block is stored. -/
  | insertBadBlock (b : BadBlock) : Step e (e.withDatabase (e.store.database.insertBadBlock b))
  /-- A stored block is given as the first one again. -/
  | initGenesis (b : Block) {heads : Heads} {db : Database} (hb : e.store.database.chain.Stored b)
      (hinit : e.store.database.initGenesis b = .ok (heads, db)) : Step e (e.withDatabase db)
  /-- Calls of the store begin or cease to fail, the writing of pointers among them. -/
  | faults (faults : StoreFaults) : Step e { e with store := { e.store with faults } }
  /-- Payload jobs are started, work and end. -/
  | work (coordinator : Coordinator) : Step e { e with coordinator }
  /-- The engine is started again from the pointers in the store. -/
  | restart (schedule : Schedule) (coordinator : Coordinator) (metrics : Metrics) {e' : Engine}
      (hstart : start e.store schedule coordinator metrics = .ok e') : Step e e'

/-- An engine that was started on a database with nothing but its first block. -/
def Fresh (e : Engine) : Prop :=
  ∃ (store : Store) (b : Block) (heads : Heads) (schedule : Schedule) (coordinator : Coordinator)
      (metrics : Metrics),
    Database.empty.initGenesis b = .ok (heads, store.database) ∧
      start store schedule coordinator metrics = .ok e

/-- Any number of steps leads from the one to the other. -/
abbrev Reaches : Engine → Engine → Prop := Relation.ReflTransGen Step

/-- A state of a run. -/
def Reachable (e : Engine) : Prop := ∃ first, Fresh first ∧ Reaches first e

lemma Fresh.reachable (h : Fresh e) : Reachable e := ⟨e, h, .refl⟩

lemma Reachable.trans (h : Reachable e) (hreach : Reaches e e') : Reachable e' := by
  obtain ⟨first, hfirst, hreach'⟩ := h
  exact ⟨first, hfirst, hreach'.trans hreach⟩

lemma Reachable.step (h : Reachable e) (hstep : Step e e') : Reachable e' :=
  h.trans (.single hstep)

/-! ## What holds in every state -/

/-- The pointers in memory are those on disk, and the stored chain carries them. -/
structure Sound (e : Engine) : Prop where
  unpoisoned : e.poisoned = false
  built : e.store.database.Built
  persisted : e.store.database.heads? = .ok (some e.heads)
  carries : e.store.database.chain.Carries e.heads

lemma start_eq_ok_iff {store : Store} {schedule : Schedule} {coordinator : Coordinator}
    {metrics : Metrics} :
    start store schedule coordinator metrics = .ok e ↔
      ∃ heads, store.heads? = .ok (some heads) ∧
        e = { store, schedule, heads, coordinator, metrics := metrics.showHeads heads } := by
  unfold start
  rw [bind_eq_ok_iff]
  constructor
  · rintro ⟨_ | heads, hheads, h⟩
    · cases h
    · cases h
      exact ⟨heads, hheads, rfl⟩
  · rintro ⟨heads, hheads, rfl⟩
    exact ⟨some heads, hheads, rfl⟩

/-- An engine that is started anew has the pointers that are on disk. -/
lemma start_sound {store : Store} {schedule : Schedule} {coordinator : Coordinator}
    {metrics : Metrics} (hbuilt : store.database.Built)
    (hcarries : ∀ heads, store.database.heads? = .ok (some heads) →
      store.database.chain.Carries heads)
    (hstart : start store schedule coordinator metrics = .ok e) : Sound e := by
  obtain ⟨heads, hheads, rfl⟩ := start_eq_ok_iff.1 hstart
  have hpersisted := Store.database_heads?_of_heads? hheads
  exact ⟨rfl, hbuilt, hpersisted, hcarries heads hpersisted⟩

theorem Fresh.sound (h : Fresh e) : Sound e := by
  obtain ⟨store, b, heads, schedule, coordinator, metrics, hinit, hstart⟩ := h
  rw [Database.initGenesis_empty] at hinit
  have hdb : (Database.empty.insertBlock b).setHeads (.ofGenesis b) = store.database :=
    congrArg Prod.snd (Except.ok.inj hinit)
  refine start_sound ?_ ?_ hstart
  · rw [← hdb]
    exact .setHeads _ (.insertBlock b .empty)
  · intro heads hheads
    rw [← hdb, Database.heads?_setHeads] at hheads
    cases hheads
    rw [← hdb]
    exact Chain.carries_ofGenesis (Database.stored_insertBlock .empty b)

/-- Moving the pointers to where a fork choice resolves keeps them carried and on disk. -/
lemma Sound.moveTo (h : Sound e) {state : ForkchoiceState} {new : Heads}
    (haccept : e.Accepts state new) : Sound (e.moveTo new) := by
  have hgrow := e.store.chain_growsTo
  have hcarries := (Chain.resolve_eq_resolved_iff.1 haccept.resolves).carries
    (h.built.faithful.of_growsTo hgrow)
  refine ⟨?_, ?_, ?_, ?_⟩
  · rw [moveTo_poisoned, h.unpoisoned]
  · exact moveTo_built h.built new
  · rw [moveTo_heads?, moveTo_heads]
    split_ifs with hsame
    · rw [h.persisted, hsame]
    · rfl
  · rw [moveTo_database_chain, moveTo_heads]
    exact hcarries.grow hgrow

/-- Every step keeps the pointers carried and on disk. -/
theorem Step.sound (hstep : Step e e') (h : Sound e) : Sound e' := by
  cases hstep with
  | request v param attributes hanswer =>
    obtain ⟨metrics, hafter⟩ | ⟨state, new, coordinator, metrics, haccept, hafter⟩ :=
      (e.answered v param attributes).after_eq hanswer
    · rw [hafter]
      exact ⟨h.unpoisoned, h.built, h.persisted, h.carries⟩
    · have hmoved := h.moveTo haccept
      rw [hafter]
      exact ⟨hmoved.unpoisoned, hmoved.built, hmoved.persisted, hmoved.carries⟩
  | insertBlock b hb =>
    exact ⟨h.unpoisoned, .insertBlock b h.built, h.persisted,
      h.carries.grow (Database.growsTo_insertBlock hb)⟩
  | insertBadBlock b =>
    exact ⟨h.unpoisoned, .insertBadBlock b h.built, h.persisted, h.carries.grow (.refl _)⟩
  | initGenesis b hb hinit =>
    rw [Database.initGenesis_of_heads? h.persisted] at hinit
    cases hinit
    exact ⟨h.unpoisoned, .insertBlock b h.built, h.persisted,
      h.carries.grow (Database.growsTo_insertBlock (Database.admits_of_stored hb))⟩
  | faults faults => exact ⟨h.unpoisoned, h.built, h.persisted, h.carries⟩
  | work coordinator => exact ⟨h.unpoisoned, h.built, h.persisted, h.carries⟩
  | restart schedule coordinator metrics hstart =>
    refine start_sound h.built ?_ hstart
    intro heads hheads
    cases h.persisted.symm.trans hheads
    exact h.carries

theorem Reachable.sound (h : Reachable e) : Sound e := by
  obtain ⟨first, hfirst, hreach⟩ := h
  induction hreach with
  | refl => exact hfirst.sound
  | tail _ hstep ih => exact hstep.sound ih

/-- A run can always be continued by a restart, unless the pointers cannot be read just then, and
the pointers are those from before. -/
theorem Reachable.exists_restart (h : Reachable e) (hread : e.store.faults.pointers = false)
    (schedule : Schedule) (coordinator : Coordinator) (metrics : Metrics) :
    ∃ e', start e.store schedule coordinator metrics = .ok e' ∧ e'.heads = e.heads := by
  have hheads : e.store.heads? = .ok (some e.heads) := by
    rw [Store.heads?, hread]
    exact h.sound.persisted
  exact ⟨_, start_eq_ok_iff.2 ⟨e.heads, hheads, rfl⟩, rfl⟩

/-! ## A run on two blocks -/

/-- The hash that ends in a byte. -/
def hashOf (byte : UInt8) : Hash := ⟨List.replicate 31 0 ++ [byte], rfl⟩

/-- A first block. -/
def firstBlock : Block := ⟨hashOf 1, 0, .zero 32, 0⟩

/-- A block on top of the first one. -/
def secondBlock : Block := ⟨hashOf 2, 1, hashOf 1, 12⟩

/-- Another block on top of the first one. -/
def rivalBlock : Block := ⟨hashOf 3, 1, hashOf 1, 12⟩

/-- An engine on the first block. -/
def oneBlock : Engine where
  store.database := (Database.empty.insertBlock firstBlock).setHeads (.ofGenesis firstBlock)
  schedule := .empty
  heads := .ofGenesis firstBlock
  coordinator := { timing := {}, script := [] }

/-- The engine with the second block stored. -/
def twoBlocks : Engine := oneBlock.withDatabase (oneBlock.store.database.insertBlock secondBlock)

lemma fresh_oneBlock : Fresh oneBlock := by
  refine ⟨oneBlock.store, firstBlock, _, .empty, oneBlock.coordinator, {},
    Database.initGenesis_empty firstBlock, start_eq_ok_iff.2 ⟨_, ?_, rfl⟩⟩
  exact Database.heads?_setHeads _ _

lemma admits_secondBlock : oneBlock.store.database.Admits secondBlock := by
  refine Database.admits_of_missing ?_
  rw [oneBlock, Database.block?_setHeads, Database.block?_insertBlock, if_neg (by decide),
    Database.block?_empty]

lemma reachable_twoBlocks : Reachable twoBlocks :=
  fresh_oneBlock.reachable.step (.insertBlock secondBlock admits_secondBlock)

lemma stored_firstBlock : twoBlocks.store.chain.Stored firstBlock := by
  have hstored : oneBlock.store.database.chain.Stored firstBlock :=
    Database.stored_insertBlock .empty firstBlock
  exact (hstored.grow (Database.growsTo_insertBlock admits_secondBlock)).grow
    (Store.chain_growsTo_of_readable (s := twoBlocks.store) rfl)

lemma stored_secondBlock : twoBlocks.store.chain.Stored secondBlock :=
  (Database.stored_insertBlock oneBlock.store.database secondBlock).grow
    (Store.chain_growsTo_of_readable (s := twoBlocks.store) rfl)

/-- Nothing is stored but the two blocks. -/
lemma block?_twoBlocks {hash : Hash} (h : hash ≠ firstBlock.hash) (h' : hash ≠ secondBlock.hash) :
    twoBlocks.store.database.block? hash = .ok none := by
  show (oneBlock.store.database.insertBlock secondBlock).block? hash = _
  rw [Database.block?_insertBlock, if_neg h', oneBlock, Database.block?_setHeads,
    Database.block?_insertBlock, if_neg h, Database.block?_empty]

lemma block?_rivalBlock : twoBlocks.store.database.block? rivalBlock.hash = .ok none :=
  block?_twoBlocks (by decide) (by decide)

lemma firstBlock_isAncestor? :
    twoBlocks.store.chain.isAncestor? firstBlock secondBlock = .ok (some true) := by
  have hfaithful : twoBlocks.store.chain.Faithful :=
    reachable_twoBlocks.sound.built.faithful.of_growsTo twoBlocks.store.chain_growsTo
  have hparent : twoBlocks.store.chain.parent? secondBlock = .ok (some firstBlock) :=
    Chain.parent?_eq_some_iff.2 ⟨stored_firstBlock, rfl⟩
  exact (Chain.isAncestor?_eq_true_iff hfaithful stored_firstBlock stored_secondBlock).2
    (.of_parent hparent)

lemma validate_request (schedule : Schedule) (h : Heads) :
    Version.v1.validate schedule h.request.toParam none = .ok h.request :=
  rfl

/-- The engine after the request for pointers. -/
def update (e : Engine) (h : Heads) : Engine :=
  (e.forkchoiceUpdated .v1 h.request.toParam none).after

lemma answer_of_accepts {h : Heads} (haccept : e.Accepts h.request h) :
    (e.forkchoiceUpdated .v1 h.request.toParam none).answer =
      .update ⟨.valid h.head.hash, none⟩ :=
  ((e.answered .v1 h.request.toParam none).of_accepts rfl haccept).1

lemma update_of_accepts {h : Heads} (haccept : e.Accepts h.request h) :
    ∃ metrics, e.update h = { e.moveTo h with metrics } :=
  ((e.answered .v1 h.request.toParam none).of_accepts rfl haccept).2

lemma step_of_accepts {h : Heads} (haccept : e.Accepts h.request h) :
    Step e (e.update h) := by
  refine .request .v1 _ none ?_
  rw [answer_of_accepts haccept]
  exact nofun

/-- The second block as the head, and the first block finalized, without a safe block. -/
def firstFinalized : Heads := ⟨secondBlock, none, some firstBlock⟩

/-- The second block as the head, safe and finalized. -/
def secondFinalized : Heads := ⟨secondBlock, some secondBlock, some secondBlock⟩

lemma twoBlocks_resolves_first :
    twoBlocks.store.chain.Resolves firstFinalized.request firstFinalized where
  head_ne_zero := by decide
  not_rejected := rfl
  head := stored_secondBlock
  safe := rfl
  finalized := ⟨by decide, stored_firstBlock⟩
  ordered := by
    refine ⟨?_, nofun, fun _ _ => nofun⟩
    rintro _ ⟨⟩
    exact firstBlock_isAncestor?

lemma twoBlocks_resolves_second :
    twoBlocks.store.chain.Resolves secondFinalized.request secondFinalized where
  head_ne_zero := by decide
  not_rejected := rfl
  head := stored_secondBlock
  safe := ⟨by decide, stored_secondBlock⟩
  finalized := ⟨by decide, stored_secondBlock⟩
  ordered := by
    refine ⟨?_, ?_, ?_⟩
    · rintro _ ⟨⟩
      exact Chain.isAncestor?_self _ _
    · rintro _ ⟨⟩
      exact Chain.isAncestor?_self _ _
    · rintro _ ⟨⟩ _ ⟨⟩
      exact Chain.isAncestor?_self _ _

lemma twoBlocks_accepts_first :
    twoBlocks.Accepts firstFinalized.request firstFinalized where
  unpoisoned := rfl
  resolves := Chain.resolve_eq_resolved_iff.2 twoBlocks_resolves_first
  unopposed := rfl
  writable := .inr rfl

/-- The engine that has finalized the first block. -/
def afterFirst : Engine := twoBlocks.update firstFinalized

/-- The engine that has finalized the first block and then the second one. -/
def afterSecond : Engine := afterFirst.update secondFinalized

lemma exists_afterFirst :
    ∃ metrics, afterFirst = { twoBlocks.moveTo firstFinalized with metrics } :=
  update_of_accepts twoBlocks_accepts_first

lemma afterFirst_accepts_second :
    afterFirst.Accepts secondFinalized.request secondFinalized := by
  obtain ⟨metrics, hafter⟩ := exists_afterFirst
  rw [hafter]
  refine ⟨?_, ?_, ?_, ?_⟩
  · simp only [moveTo_poisoned]
    rfl
  · simp only [moveTo_chain]
    exact Chain.resolve_eq_resolved_iff.2 twoBlocks_resolves_second
  · simp only [moveTo_chain, moveTo_heads]
    refine Chain.finalityObjection?_eq_none_iff.2 ?_
    rintro _ ⟨⟩
    exact ⟨rfl, secondBlock, rfl, firstBlock_isAncestor?⟩
  · simp only [moveTo_faults]
    exact .inr rfl

lemma reachable_afterFirst : Reachable afterFirst :=
  reachable_twoBlocks.step (step_of_accepts twoBlocks_accepts_first)

lemma reaches_afterSecond : Reaches afterFirst afterSecond :=
  .single (step_of_accepts afterFirst_accepts_second)

/-! ## Memory and disk -/

/-- In every state of a run the pointers in memory are those on disk, each of them that is set is
the block that is stored under its hash, and they lie on one stored branch. -/
theorem memory_and_disk_agree (h : Reachable e) :
    ∃ heads, e.currentHeads = .ok heads ∧ e.store.database.heads? = .ok (some heads) ∧
      e.store.database.chain.Carries heads := by
  have hsound := h.sound
  refine ⟨e.heads, ?_, hsound.persisted, hsound.carries⟩
  rw [currentHeads, hsound.unpoisoned]
  rfl

theorem memory_and_disk_agree_afterFirst :
    Reachable afterFirst ∧
      ∃ heads, afterFirst.currentHeads = .ok heads ∧
        afterFirst.store.database.heads? = .ok (some heads) ∧
        afterFirst.store.database.chain.Carries heads :=
  ⟨reachable_afterFirst, memory_and_disk_agree reachable_afterFirst⟩

end Engine

end ChainHead
