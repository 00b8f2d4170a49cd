import ChainHead.Proofs.Engine.AllOrNothing
import ChainHead.Proofs.Engine.Judgement

/-!
# Heads that were turned down

Once a block was turned down, its record stays (`Engine.isRejected_iff_of_fresh`), and a request
that names the block as its head is refused with what the record says
(`Engine.answer_of_rejected`).  So whenever a request is answered as valid, the new head has no
record (`Engine.valid_head_not_rejected`).

The record of the head is the only one that is looked up.  Records of other blocks, be it the safe
block, the finalized one or any other below the head, make no difference to the answer, and so a
rejected block that is stored is made canonical by a head above it
(`Engine.rejected_parent_finalized`).
-/

namespace ChainHead

namespace Engine

variable {e after : Engine} {v : Version} {param : ForkchoiceParam} {state : ForkchoiceState}
  {attributes : Option PayloadAttributes} {new : Heads} {answer : Answer} {hash : Hash}

/-! ## Calls -/

/-- A call of the engine or of the database below it. -/
inductive Call where
  /-- Stores a block, in place of one that has its hash. -/
  | insertBlock (b : Block)
  /-- Stores the record of a rejected block. -/
  | insertBadBlock (b : BadBlock)
  /-- Requests a fork choice. -/
  | request (v : Version) (param : ForkchoiceParam) (attributes : Option PayloadAttributes)

def perform (e : Engine) : Call → Engine
  | .insertBlock b => e.withDatabase (e.store.database.insertBlock b)
  | .insertBadBlock b => e.withDatabase (e.store.database.insertBadBlock b)
  | .request v param attributes => (e.forkchoiceUpdated v param attributes).after

/-- The engine after some calls, one after the other. -/
def afterCalls (e : Engine) (calls : List Call) : Engine := calls.foldl perform e

lemma afterCalls_concat (e : Engine) (calls : List Call) (call : Call) :
    e.afterCalls (calls ++ [call]) = (e.afterCalls calls).perform call :=
  List.foldl_append

/-! ## What a call leaves alone -/

lemma moveTo_store (e : Engine) (new : Heads) :
    (e.moveTo new).store = e.store ∨
      (e.moveTo new).store = { e.store with database := e.store.database.setHeads new } := by
  unfold moveTo
  split_ifs
  · exact .inl rfl
  · exact .inr rfl

/-- A request may write pointers, and it does nothing else to the store. -/
lemma Answered.store (h : Answered e v param attributes answer after) :
    after.store = e.store ∨
      ∃ new, after.store = { e.store with database := e.store.database.setHeads new } := by
  cases h with
  | refused _ _ => exact .inl rfl
  | overflowed _ _ _ _ => exact .inl rfl
  | rejected _ _ _ _ => exact .inl rfl
  | @moved _ new _ _ _ _ => exact (e.moveTo_store new).imp_right fun h => ⟨new, h⟩
  | @stale _ new _ _ _ _ _ _ => exact (e.moveTo_store new).imp_right fun h => ⟨new, h⟩
  | @building _ new _ _ _ _ _ _ => exact (e.moveTo_store new).imp_right fun h => ⟨new, h⟩

lemma built_perform (h : e.store.database.Built) (call : Call) :
    (e.perform call).store.database.Built := by
  cases call with
  | insertBlock b => exact .insertBlock b h
  | insertBadBlock b => exact .insertBadBlock b h
  | request v param attributes =>
    obtain hstore | ⟨new, hstore⟩ := (e.answered v param attributes).store
    · rw [perform, hstore]
      exact h
    · rw [perform, hstore]
      exact .setHeads new h

lemma recordsBadBlocks_perform (e : Engine) (call : Call) :
    (e.perform call).store.recordsBadBlocks = e.store.recordsBadBlocks := by
  cases call with
  | insertBlock b => rfl
  | insertBadBlock b => rfl
  | request v param attributes =>
    obtain hstore | ⟨new, hstore⟩ := (e.answered v param attributes).store
    · rw [perform, hstore]
    · rw [perform, hstore]

lemma built_afterCalls (h : e.store.database.Built) (calls : List Call) :
    (e.afterCalls calls).store.database.Built :=
  calls.foldlRecOn (motive := fun e : Engine => e.store.database.Built) _ h
    fun _ he call _ => built_perform he call

lemma recordsBadBlocks_afterCalls (e : Engine) (calls : List Call) :
    (e.afterCalls calls).store.recordsBadBlocks = e.store.recordsBadBlocks :=
  calls.foldlRecOn (motive := fun e' : Engine =>
      e'.store.recordsBadBlocks = e.store.recordsBadBlocks) _ rfl
    fun e' he' call _ => (recordsBadBlocks_perform e' call).trans he'

/-! ## Records -/

/-- There is a record that says that the block with the hash was turned down. -/
def IsRejected (e : Engine) (hash : Hash) : Prop :=
  ∃ bad, e.store.database.badBlock? hash = .ok (some bad)

lemma Answered.isRejected_iff (h : Answered e v param attributes answer after) :
    after.IsRejected hash ↔ e.IsRejected hash := by
  unfold IsRejected
  obtain hstore | ⟨new, hstore⟩ := h.store
  · rw [hstore]
  · rw [hstore]
    rfl

/-- A call leaves the records there are, and only a call that stores a record adds one. -/
lemma isRejected_perform_iff (e : Engine) (call : Call) :
    (e.perform call).IsRejected hash ↔
      e.IsRejected hash ∨ ∃ bad, call = .insertBadBlock bad ∧ bad.hash = hash := by
  cases call with
  | insertBlock b =>
    refine ⟨.inl, fun h => h.resolve_right ?_⟩
    rintro ⟨_, ⟨⟩, -⟩
  | request v param attributes =>
    rw [perform, (e.answered v param attributes).isRejected_iff]
    refine ⟨.inl, fun h => h.resolve_right ?_⟩
    rintro ⟨_, ⟨⟩, -⟩
  | insertBadBlock bad =>
    have hfound := e.store.database.badBlock?_insertBadBlock bad hash
    by_cases hsame : hash = bad.hash
    · refine iff_of_true ⟨bad, ?_⟩ (.inr ⟨bad, rfl, hsame.symm⟩)
      rw [if_pos hsame] at hfound
      exact hfound
    · rw [if_neg hsame] at hfound
      show (∃ bad', (e.store.database.insertBadBlock bad).badBlock? hash = _) ↔ _
      rw [hfound]
      refine ⟨.inl, fun h => h.resolve_right ?_⟩
      rintro ⟨_, ⟨⟩, hhash⟩
      exact hsame hhash.symm

/-- So the rejected blocks are those that were so before and those whose record was stored. -/
theorem isRejected_afterCalls_iff (e : Engine) (calls : List Call) :
    (e.afterCalls calls).IsRejected hash ↔
      e.IsRejected hash ∨ ∃ bad, .insertBadBlock bad ∈ calls ∧ bad.hash = hash := by
  induction calls generalizing e with
  | nil => simp [afterCalls]
  | cons call calls ih =>
    rw [afterCalls, List.foldl_cons, ← afterCalls, ih, isRejected_perform_iff]
    constructor
    · rintro ((h | ⟨bad, rfl, hhash⟩) | ⟨bad, hmem, hhash⟩)
      · exact .inl h
      · exact .inr ⟨bad, List.mem_cons_self, hhash⟩
      · exact .inr ⟨bad, List.mem_cons_of_mem _ hmem, hhash⟩
    · rintro (h | ⟨bad, hmem, hhash⟩)
      · exact .inl (.inl h)
      · obtain hcall | hmem := List.mem_cons.1 hmem
        · exact .inl (.inr ⟨bad, hcall.symm, hhash⟩)
        · exact .inr ⟨bad, hmem, hhash⟩

lemma Fresh.not_isRejected (h : Fresh e) (hash : Hash) : ¬ e.IsRejected hash := by
  obtain ⟨store, b, heads, schedule, coordinator, metrics, hinit, hstart⟩ := h
  obtain ⟨_, -, rfl⟩ := start_eq_ok_iff.1 hstart
  rw [Database.initGenesis_empty] at hinit
  have hdb : (Database.empty.insertBlock b).setHeads (.ofGenesis b) = store.database :=
    congrArg Prod.snd (Except.ok.inj hinit)
  rintro ⟨bad, hbad⟩
  rw [← hdb] at hbad
  cases (Database.badBlock?_empty hash).symm.trans hbad

/-- From the first block on, the rejected blocks are those whose record was stored. -/
theorem isRejected_iff_of_fresh (h : Fresh e) (calls : List Call) :
    (e.afterCalls calls).IsRejected hash ↔
      ∃ bad, .insertBadBlock bad ∈ calls ∧ bad.hash = hash := by
  rw [isRejected_afterCalls_iff, or_iff_right (h.not_isRejected hash)]

/-! ## The record of the head -/

/-- A request for a rejected head is refused with what the record says. -/
theorem answer_of_rejected {bad : BadBlock} (hpoisoned : e.poisoned = false)
    (hstate : v.validate e.schedule param attributes = .ok state)
    (hne : state.headBlockHash ≠ .zero 32)
    (hbad : e.store.chain.badBlock? state.headBlockHash = .ok (some bad)) :
    (e.forkchoiceUpdated v param attributes).answer =
      .update ⟨.invalid bad.latestValidAncestor (Refusal.rejectedHead bad.reason).message, none⟩ := by
  have hresolve : e.store.chain.resolve state =
      .ok (.invalid bad.latestValidAncestor (.rejectedHead bad.reason)) := by
    rw [Chain.resolve, if_neg hne, hbad]
    rfl
  exact answer_of_judge_invalid hstate hpoisoned
    ((Chain.judge_eq_ok_iff_of_ne (by simp)).2 (.inl hresolve))

/-- What a job is started on, and for what, decides with the payload jobs how that is answered. -/
lemma buildOn_answer_eq {e' : Engine} (hjobs : e'.coordinator = e.coordinator) {head : Block}
    (hhead : e'.isHead head = e.isHead head) (attributes : Option PayloadAttributes) :
    (e'.buildOn head attributes).answer = (e.buildOn head attributes).answer := by
  unfold buildOn
  rw [hhead]
  cases attributes with
  | none => rfl
  | some a =>
    dsimp only
    split_ifs
    · rfl
    · rw [startOn_answer, startOn_answer, hjobs]
    · rfl

/-- The answer to an accepted fork choice is made where the pointers are moved. -/
lemma answer_of_accepted (hstate : v.validate e.schedule param attributes = .ok state)
    (haccept : e.Accepts state new) :
    (e.forkchoiceUpdated v param attributes).answer =
      ((e.moveTo new).buildOn new.head attributes).answer := by
  obtain ⟨hresult, hafter⟩ := apply_of_accepts haccept
  rw [forkchoiceUpdated_answer]
  simp only [handle, hstate, hresult, hafter]

/-- The record of a block other than the head makes no difference to a request that is accepted. -/
lemma answer_of_other_record (hstate : v.validate e.schedule param attributes = .ok state)
    (haccept : e.Accepts state new) {bad : BadBlock} (hother : bad.hash ≠ state.headBlockHash) :
    ((e.perform (.insertBadBlock bad)).forkchoiceUpdated v param attributes).answer =
      (e.forkchoiceUpdated v param attributes).answer := by
  have hfound : (e.store.database.insertBadBlock bad).badBlock? state.headBlockHash =
      e.store.database.badBlock? state.headBlockHash := by
    rw [Database.badBlock?_insertBadBlock, if_neg hother.symm]
  have hchain : (e.perform (.insertBadBlock bad)).store.chain.badBlock? state.headBlockHash =
      e.store.chain.badBlock? state.headBlockHash := by
    simp only [perform, withDatabase, Store.chain, Database.chain, hfound]
  have haccept' : (e.perform (.insertBadBlock bad)).Accepts state new :=
    haccept.grow (fun _ _ h => h) hchain rfl rfl rfl
  have hstate' : v.validate (e.perform (.insertBadBlock bad)).schedule param attributes =
      .ok state := hstate
  have hjobs : ((e.perform (.insertBadBlock bad)).moveTo new).coordinator =
      (e.moveTo new).coordinator := by
    rw [moveTo_coordinator, moveTo_coordinator]
    rfl
  have hhead : ((e.perform (.insertBadBlock bad)).moveTo new).isHead new.head =
      (e.moveTo new).isHead new.head := by
    rw [isHead_moveTo haccept.unpoisoned, isHead_moveTo haccept'.unpoisoned]
  rw [answer_of_accepted hstate haccept, answer_of_accepted hstate' haccept']
  exact buildOn_answer_eq hjobs hhead attributes

/-- The head of a request that is answered as valid has no record. -/
lemma Answered.not_isRejected_of_valid {id : Option PayloadId}
    (h : Answered e v param attributes (.update ⟨.valid hash, id⟩) after)
    (hbuilt : e.store.database.Built) (hrecords : e.store.recordsBadBlocks = true) :
    ∃ state new coordinator metrics, v.validate e.schedule param attributes = .ok state ∧
      e.Accepts state new ∧ after = { e.moveTo new with coordinator, metrics } ∧
      state.headBlockHash = hash ∧ new.head.hash = hash ∧ ¬ e.IsRejected hash := by
  obtain ⟨state, new, coordinator, metrics, hstate, haccept, hafter⟩ := h.exists_moveTo (.inl rfl)
  have hresolves := Chain.resolve_eq_resolved_iff.1 haccept.resolves
  -- the answer names the requested head, and that is the hash it was found under
  have hrequested : some hash = param.headBlockHash := h.latestValidHash?_of_isValid hbuilt rfl
  rw [(Version.validate_eq_ok_iff.1 hstate).1] at hrequested
  cases hrequested
  have hfaithful := hbuilt.faithful.of_growsTo e.store.chain_growsTo
  refine ⟨state, new, coordinator, metrics, hstate, haccept, hafter, rfl,
    hfaithful _ _ hresolves.head, ?_⟩
  rintro ⟨bad, hbad⟩
  cases hbad.symm.trans (Store.badBlock?_of_chain hrecords hresolves.not_rejected)

/-- Whatever blocks and records were stored and whatever was requested before, from the first block
on: when a request is answered as valid, the new head has no record then.  The answer would be the
same if there were one more record, of any other block. -/
theorem valid_head_not_rejected {id : Option PayloadId} (h : Fresh e)
    (hrecords : e.store.recordsBadBlocks = true) (calls : List Call)
    (hvalid : ((e.afterCalls calls).forkchoiceUpdated v param attributes).answer =
      .update ⟨.valid hash, id⟩) :
    (∃ heads, ((e.afterCalls calls).forkchoiceUpdated v param attributes).after.currentHeads =
        .ok heads ∧ heads.head.hash = hash) ∧
      ¬ ((e.afterCalls calls).forkchoiceUpdated v param attributes).after.IsRejected hash ∧
      (∀ bad, .insertBadBlock bad ∈ calls → bad.hash ≠ hash) ∧
      ∀ bad, bad.hash ≠ hash →
        ((e.afterCalls (calls ++ [.insertBadBlock bad])).forkchoiceUpdated v param
          attributes).answer = .update ⟨.valid hash, id⟩ := by
  have hends := (e.afterCalls calls).answered v param attributes
  rw [hvalid] at hends
  obtain ⟨state, new, coordinator, metrics, hstate, haccept, hafter, rfl, hhead, hnot⟩ :=
    hends.not_isRejected_of_valid (built_afterCalls h.sound.built calls)
      ((recordsBadBlocks_afterCalls e calls).trans hrecords)
  refine ⟨⟨new, ?_, hhead⟩, fun hlater => hnot (hends.isRejected_iff.1 hlater), ?_, ?_⟩
  · rw [hafter]
    exact currentHeads_moveTo haccept
  · intro bad hmem hhash
    exact hnot ((isRejected_iff_of_fresh h calls).2 ⟨bad, hmem, hhash⟩)
  · intro bad hother
    rw [afterCalls_concat, answer_of_other_record hstate haccept hother, hvalid]

/-! ### A head above a rejected block -/

/-- A block on top of the second one. -/
def childBlock : Block := ⟨hashOf 6, 2, hashOf 2, 24⟩

/-- What is recorded when the second block is turned down. -/
def secondRecord : BadBlock := ⟨hashOf 2, some (hashOf 1), "invalid state root"⟩

/-- The engine with the child of the second block stored. -/
def withChild : Engine := twoBlocks.withDatabase (twoBlocks.store.database.insertBlock childBlock)

/-- The engine with the record of the second block stored as well. -/
def withRecord : Engine :=
  withChild.withDatabase (withChild.store.database.insertBadBlock secondRecord)

def recordingCalls : List Call :=
  [.insertBlock secondBlock, .insertBlock childBlock, .insertBadBlock secondRecord]

/-- The child as the head, and the second block safe and finalized. -/
def childHead : Heads := ⟨childBlock, some secondBlock, some secondBlock⟩

lemma afterCalls_recordingCalls : oneBlock.afterCalls recordingCalls = withRecord := rfl

lemma admits_childBlock : twoBlocks.store.database.Admits childBlock :=
  Database.admits_of_missing (block?_twoBlocks (by decide) (by decide))

lemma withRecord_growsTo : twoBlocks.store.chain.GrowsTo withRecord.store.chain := by
  have hchild : twoBlocks.store.chain.GrowsTo withChild.store.chain :=
    withDatabase_growsTo rfl (Database.growsTo_insertBlock admits_childBlock)
  exact hchild.trans (withDatabase_growsTo rfl (.refl _))

lemma stored_childBlock : withRecord.store.chain.Stored childBlock := by
  have hstored : withChild.store.database.chain.Stored childBlock :=
    Database.stored_insertBlock twoBlocks.store.database childBlock
  exact hstored.grow (Store.chain_growsTo_of_readable (s := withRecord.store) rfl)

lemma badBlock?_withRecord (hash : Hash) :
    withRecord.store.database.badBlock? hash =
      if hash = hashOf 2 then .ok (some secondRecord) else .ok none :=
  withChild.store.database.badBlock?_insertBadBlock secondRecord hash

lemma chain_badBlock?_withRecord (hash : Hash) :
    withRecord.store.chain.badBlock? hash =
      (withRecord.store.database.badBlock? hash).mapError Failure.fault := rfl

lemma withRecord_parent? :
    withRecord.store.chain.parent? childBlock = .ok (some secondBlock) :=
  Chain.parent?_eq_some_iff.2 ⟨stored_secondBlock.grow withRecord_growsTo, rfl⟩

lemma withRecord_isAncestor? :
    withRecord.store.chain.isAncestor? secondBlock childBlock = .ok (some true) := by
  have hbuilt : withRecord.store.database.Built :=
    built_afterCalls fresh_oneBlock.sound.built recordingCalls
  have hfaithful := hbuilt.faithful.of_growsTo withRecord.store.chain_growsTo
  have hsecond := stored_secondBlock.grow withRecord_growsTo
  exact (Chain.isAncestor?_eq_true_iff hfaithful hsecond stored_childBlock).2
    (.of_parent withRecord_parent?)

lemma withRecord_resolves : withRecord.store.chain.Resolves childHead.request childHead where
  head_ne_zero := by decide
  not_rejected := by
    rw [chain_badBlock?_withRecord, badBlock?_withRecord, if_neg (by decide)]
    rfl
  head := stored_childBlock
  safe := ⟨by decide, stored_secondBlock.grow withRecord_growsTo⟩
  finalized := ⟨by decide, stored_secondBlock.grow withRecord_growsTo⟩
  ordered := by
    have hself := Chain.isAncestor?_self withRecord.store.chain secondBlock
    refine ⟨?_, ?_, ?_⟩
    · rintro _ ⟨⟩
      exact withRecord_isAncestor?
    · rintro _ ⟨⟩
      exact withRecord_isAncestor?
    · rintro _ ⟨⟩ _ ⟨⟩
      exact hself

lemma withRecord_accepts : withRecord.Accepts childHead.request childHead where
  unpoisoned := rfl
  resolves := Chain.resolve_eq_resolved_iff.2 withRecord_resolves
  unopposed := rfl
  writable := .inr rfl

lemma answer_childHead :
    ((oneBlock.afterCalls recordingCalls).forkchoiceUpdated .v1 childHead.request.toParam
      none).answer = .update ⟨.valid (hashOf 6), none⟩ := by
  rw [afterCalls_recordingCalls]
  exact answer_of_accepts withRecord_accepts

theorem valid_head_not_rejected_childBlock :
    Fresh oneBlock ∧ oneBlock.store.recordsBadBlocks = true ∧
      ((oneBlock.afterCalls recordingCalls).forkchoiceUpdated .v1 childHead.request.toParam
        none).answer = .update ⟨.valid (hashOf 6), none⟩ ∧
      ¬ ((oneBlock.afterCalls recordingCalls).forkchoiceUpdated .v1 childHead.request.toParam
        none).after.IsRejected (hashOf 6) := by
  obtain ⟨-, hnot, -⟩ := valid_head_not_rejected fresh_oneBlock rfl recordingCalls answer_childHead
  exact ⟨fresh_oneBlock, rfl, answer_childHead, hnot⟩

/-- After the second block was turned down, a request for it as the head is refused, but one for its
child as the head and for the second block as the safe and the finalized one is answered as valid.
Then the pointers name the second block, which is stored and has its record. -/
theorem rejected_parent_finalized :
    Fresh oneBlock ∧ oneBlock.store.recordsBadBlocks = true ∧
      ((oneBlock.afterCalls recordingCalls).forkchoiceUpdated .v1 secondHead.request.toParam
        none).answer = .update ⟨.invalid secondRecord.latestValidAncestor
          (Refusal.rejectedHead secondRecord.reason).message, none⟩ ∧
      ((oneBlock.afterCalls recordingCalls).forkchoiceUpdated .v1 childHead.request.toParam
        none).answer = .update ⟨.valid (hashOf 6), none⟩ ∧
      ((oneBlock.afterCalls recordingCalls).update childHead).currentHeads = .ok childHead ∧
      ((oneBlock.afterCalls recordingCalls).update childHead).store.chain.parent? childBlock =
        .ok (some secondBlock) ∧
      ((oneBlock.afterCalls recordingCalls).update childHead).IsRejected secondBlock.hash := by
  have hrecord : withRecord.store.database.badBlock? (hashOf 2) = .ok (some secondRecord) := by
    rw [badBlock?_withRecord, if_pos rfl]
  have hbad : withRecord.store.chain.badBlock? secondHead.request.headBlockHash =
      .ok (some secondRecord) := by
    have hhead : secondHead.request.headBlockHash = hashOf 2 := rfl
    rw [hhead, chain_badBlock?_withRecord, hrecord]
    rfl
  have hstate := validate_request withRecord.schedule secondHead
  have hrefused := answer_of_rejected rfl hstate (by decide) hbad
  obtain ⟨metrics, hafter⟩ := update_of_accepts withRecord_accepts
  have hrejected : (withRecord.update childHead).IsRejected (hashOf 2) := by
    rw [update, (withRecord.answered .v1 childHead.request.toParam none).isRejected_iff]
    exact ⟨secondRecord, hrecord⟩
  rw [afterCalls_recordingCalls]
  refine ⟨fresh_oneBlock, rfl, hrefused, answer_of_accepts withRecord_accepts, ?_, ?_, hrejected⟩
  · rw [hafter]
    exact currentHeads_moveTo withRecord_accepts
  · rw [hafter]
    simp only [moveTo_chain]
    exact withRecord_parent?

end Engine

end ChainHead
