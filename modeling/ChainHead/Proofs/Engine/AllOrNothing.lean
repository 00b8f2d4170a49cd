import ChainHead.Proofs.Engine.Run
import ChainHead.Proofs.Validation

/-!
# All or nothing

An answer to a fork choice either says that it was not applied (`Engine.Answer.Refuses`) or that it
was (`Engine.Answer.Applies`).  `Engine.AllOrNothing` says what each of them stands for: after the
one, the pointers, the store and the payload jobs are what they were; after the other, the pointers
are those that the fork choice resolves to.  It also says which requests are answered as applied
although no payload can be built, and which answers name a payload.

Two things bound what an answer stands for.  Pointers that do not change in memory are not written,
so those on disk stay as they are too; and a fork choice that is in order is still refused if its
pointers have to be written and cannot be.
-/

namespace ChainHead

namespace Engine

variable {e : Engine} {v : Version} {param : ForkchoiceParam} {state : ForkchoiceState}
  {attributes : Option PayloadAttributes} {new : Heads} {answer : Answer} {after : Engine}

/-! ## What answers say -/

namespace Answer

/-- The fork choice was not applied. -/
def Refuses : Answer → Prop
  | .update u =>
    u.payloadStatus.verdict = .syncing ∨ ∃ reason, u.payloadStatus.verdict = .invalid reason
  | .error reason => reason.kind = .invalidParams ∨ reason.kind = .unsupportedFork
  | .overflow => False

/-- The fork choice is valid. -/
def IsValid : Answer → Prop
  | .update u => u.payloadStatus.verdict = .valid
  | .error _ => False
  | .overflow => False

/-- The fork choice was applied, but no payload can be built with the attributes. -/
def IsStale : Answer → Prop
  | .update _ => False
  | .error reason => reason.kind = .invalidPayloadAttributes
  | .overflow => False

/-- The fork choice was applied. -/
def Applies (answer : Answer) : Prop := answer.IsValid ∨ answer.IsStale

/-- The payload that the answer names. -/
def payloadId? : Answer → Option PayloadId
  | .update u => u.payloadId
  | .error _ => none
  | .overflow => none

/-- The last valid block that the answer names. -/
def latestValidHash? : Answer → Option Hash
  | .update u => u.payloadStatus.latestValidHash
  | .error _ => none
  | .overflow => none

lemma not_refuses_valid {hash : Hash} {id : Option PayloadId} :
    ¬ (update ⟨.valid hash, id⟩).Refuses := by
  rintro (h | ⟨reason, h⟩) <;> cases h

lemma not_refuses_stale {time time' : UInt64} :
    ¬ (error (.attributesNotAfterHead time time')).Refuses := by
  rintro (h | h) <;> cases h

lemma not_isValid {status : PayloadStatus} {id : Option PayloadId}
    (hstatus : status.verdict = .syncing ∨ ∃ reason, status.verdict = .invalid reason) :
    ¬ (update ⟨status, id⟩).IsValid := by
  intro h
  have hvalid : status.verdict = .valid := h
  obtain hsyncing | ⟨reason, hinvalid⟩ := hstatus
  · cases hsyncing.symm.trans hvalid
  · cases hinvalid.symm.trans hvalid

lemma not_isStale {reason : RequestError}
    (hkind : reason.kind = .invalidParams ∨ reason.kind = .unsupportedFork) :
    ¬ (error reason).IsStale := by
  intro h
  have hstale : reason.kind = .invalidPayloadAttributes := h
  obtain hparams | hfork := hkind
  · cases hparams.symm.trans hstale
  · cases hfork.symm.trans hstale

end Answer

/-- What an answer stands for. -/
structure AllOrNothing (e : Engine) (v : Version) (param : ForkchoiceParam)
    (attributes : Option PayloadAttributes) (answer : Answer) (after : Engine) : Prop where
  /-- A fork choice is applied or it is not. -/
  refuses_or_applies : answer.Refuses ∨ answer.Applies
  /-- A fork choice that is not applied changes nothing and starts nothing. -/
  refused : answer.Refuses →
    after.heads = e.heads ∧ after.poisoned = e.poisoned ∧ after.store = e.store ∧
      after.coordinator = e.coordinator ∧ answer.payloadId? = none
  /-- One that is applied sets the pointers that it resolves to.  They are written unless they were
  in memory before. -/
  applied : answer.Applies →
    ∃ state new, param = state.toParam ∧ e.store.chain.resolve state = .ok (.resolved new) ∧
      after.currentHeads = .ok new ∧
      after.store.database.heads? =
        if e.heads = new then e.store.database.heads? else .ok (some new)
  /-- A valid one names the requested head, on a database that was built by storing blocks, records
  and pointers. -/
  latestValidHash : e.store.database.Built → answer.IsValid →
    answer.latestValidHash? = param.headBlockHash
  /-- Attributes are found stale exactly if the fork choice is accepted and they are not later than
  its head. -/
  stale_iff : answer.IsStale ↔
    ∃ state new a, v.validate e.schedule param attributes = .ok state ∧ e.Accepts state new ∧
      attributes = some a ∧ a.timestamp ≤ new.head.timestamp
  /-- With stale attributes no job is started. -/
  stale : answer.IsStale → after.coordinator = e.coordinator
  /-- A payload is named exactly if the fork choice is valid and attributes ask for one. -/
  payloadId_iff : e.coordinator.poisoned = false →
    (answer.payloadId?.isSome = true ↔ answer.IsValid ∧ attributes.isSome = true)

/-! ## One ending after the other -/

lemma currentHeads_moveTo {coordinator : Coordinator} {metrics : Metrics}
    (haccept : e.Accepts state new) :
    { e.moveTo new with coordinator, metrics }.currentHeads = .ok new := by
  simp only [currentHeads, moveTo_poisoned, haccept.unpoisoned, moveTo_heads]
  rfl

namespace Answered

lemma refuses_or_applies (h : Answered e v param attributes answer after)
    (hoverflow : answer ≠ .overflow) : answer.Refuses ∨ answer.Applies := by
  cases h with
  | refused _ hreason => exact .inl (Version.kind_of_validate_eq_error hreason)
  | overflowed _ _ _ _ => exact absurd rfl hoverflow
  | rejected _ _ _ hstatus => exact .inl hstatus
  | moved _ _ _ _ => exact .inr (.inl rfl)
  | stale _ _ _ _ _ => exact .inr (.inr rfl)
  | building _ _ _ _ _ => exact .inr (.inl rfl)

lemma unchanged (h : Answered e v param attributes answer after) (hanswer : answer.Refuses) :
    after.heads = e.heads ∧ after.poisoned = e.poisoned ∧ after.store = e.store ∧
      after.coordinator = e.coordinator ∧ answer.payloadId? = none := by
  cases h with
  | refused _ _ => exact ⟨rfl, rfl, rfl, rfl, rfl⟩
  | overflowed _ _ _ _ => cases hanswer
  | rejected _ _ _ _ => exact ⟨rfl, rfl, rfl, rfl, rfl⟩
  | moved _ _ _ _ => exact absurd hanswer Answer.not_refuses_valid
  | stale _ _ _ _ _ => exact absurd hanswer Answer.not_refuses_stale
  | building _ _ _ _ _ => exact absurd hanswer Answer.not_refuses_valid

/-- Only an accepted fork choice is answered as applied, and its pointers are set. -/
lemma exists_moveTo (h : Answered e v param attributes answer after) (hanswer : answer.Applies) :
    ∃ state new coordinator metrics, v.validate e.schedule param attributes = .ok state ∧
      e.Accepts state new ∧ after = { e.moveTo new with coordinator, metrics } := by
  cases h with
  | refused _ hreason =>
    obtain hvalid | hstale := hanswer
    · cases hvalid
    · exact absurd hstale (Answer.not_isStale (Version.kind_of_validate_eq_error hreason))
  | overflowed _ _ _ _ => obtain ⟨⟨⟩⟩ | ⟨⟨⟩⟩ := hanswer
  | rejected _ _ _ hstatus =>
    obtain hvalid | hstale := hanswer
    · exact absurd hvalid (Answer.not_isValid hstatus)
    · cases hstale
  | moved metrics hstate haccept _ => exact ⟨_, _, _, metrics, hstate, haccept, rfl⟩
  | stale metrics hstate haccept _ _ => exact ⟨_, _, _, metrics, hstate, haccept, rfl⟩
  | building metrics hstate haccept _ _ => exact ⟨_, _, _, metrics, hstate, haccept, rfl⟩

/-- Attributes are found stale exactly if their fork choice is accepted. -/
lemma isStale_iff (h : Answered e v param attributes answer after) :
    answer.IsStale ↔
      ∃ state new a, v.validate e.schedule param attributes = .ok state ∧ e.Accepts state new ∧
        attributes = some a ∧ a.timestamp ≤ new.head.timestamp := by
  constructor
  · intro hstale
    cases h with
    | refused _ hreason =>
      exact absurd hstale (Answer.not_isStale (Version.kind_of_validate_eq_error hreason))
    | stale _ hstate haccept hsome htime => exact ⟨_, _, _, hstate, haccept, hsome, htime⟩
    | overflowed _ _ _ _ => cases hstale
    | rejected _ _ _ _ => cases hstale
    | moved _ _ _ _ => cases hstale
    | building _ _ _ _ _ => cases hstale
  · rintro ⟨state, new, a, hstate, haccept, rfl, htime⟩
    cases h with
    | refused _ hreason => cases hstate.symm.trans hreason
    | overflowed _ hstate' hnot _ =>
      cases hstate.symm.trans hstate'
      exact absurd haccept (hnot new)
    | rejected _ hstate' hnot _ =>
      cases hstate.symm.trans hstate'
      exact absurd haccept (hnot new)
    | moved _ _ _ hnone => cases hnone
    | stale _ _ _ _ _ => rfl
    | building _ hstate' haccept' hsome htime' =>
      cases hstate.symm.trans hstate'
      cases haccept.unique haccept'
      cases hsome
      exact absurd htime htime'

lemma coordinator_of_isStale (h : Answered e v param attributes answer after)
    (hstale : answer.IsStale) : after.coordinator = e.coordinator := by
  cases h with
  | refused _ _ => rfl
  | overflowed _ _ _ _ => rfl
  | rejected _ _ _ _ => rfl
  | moved _ _ _ _ => exact moveTo_coordinator e _
  | stale _ _ _ _ _ => exact moveTo_coordinator e _
  | building _ _ _ _ _ => cases hstale

lemma latestValidHash?_of_isValid (h : Answered e v param attributes answer after)
    (hbuilt : e.store.database.Built) (hvalid : answer.IsValid) :
    answer.latestValidHash? = param.headBlockHash := by
  have hfaithful := hbuilt.faithful.of_growsTo e.store.chain_growsTo
  -- the head was found under the requested hash
  have hhead {state : ForkchoiceState} {new : Heads}
      (hstate : v.validate e.schedule param attributes = .ok state)
      (haccept : e.Accepts state new) : some new.head.hash = param.headBlockHash := by
    have hresolves := Chain.resolve_eq_resolved_iff.1 haccept.resolves
    rw [(Version.validate_eq_ok_iff.1 hstate).1, hfaithful _ _ hresolves.head]
    rfl
  cases h with
  | refused _ _ => cases hvalid
  | overflowed _ _ _ _ => cases hvalid
  | rejected _ _ _ hstatus => exact absurd hvalid (Answer.not_isValid hstatus)
  | moved _ hstate haccept _ => exact hhead hstate haccept
  | stale _ _ _ _ _ => cases hvalid
  | building _ hstate haccept _ _ => exact hhead hstate haccept

lemma payloadId?_isSome_iff (h : Answered e v param attributes answer after)
    (hpoisoned : e.coordinator.poisoned = false) :
    answer.payloadId?.isSome = true ↔ answer.IsValid ∧ attributes.isSome = true := by
  have hstart (parent : Block) (a : PayloadAttributes) :
      (e.coordinator.start parent a).result.toOption.isSome = true := by
    simp only [Coordinator.start, Coordinator.startAs, hpoisoned]
    rfl
  cases h with
  | refused _ _ => exact iff_of_false Bool.false_ne_true fun h => False.elim h.1
  | overflowed _ _ _ _ => exact iff_of_false Bool.false_ne_true fun h => False.elim h.1
  | rejected _ _ _ hstatus =>
    exact iff_of_false Bool.false_ne_true fun h => Answer.not_isValid hstatus h.1
  | moved _ _ _ hnone =>
    exact iff_of_false Bool.false_ne_true fun h => by simp [hnone] at h
  | stale _ _ _ _ _ => exact iff_of_false Bool.false_ne_true fun h => False.elim h.1
  | building _ _ _ hsome _ =>
    refine iff_of_true (hstart _ _) ⟨rfl, ?_⟩
    rw [hsome]
    rfl

end Answered

/-! ## Pointers that are not written -/

/-- A fork choice that stops at a fault is answered as invalid, whatever attributes it has. -/
lemma answer_of_fault {fault : Fault} (hstate : v.validate e.schedule param attributes = .ok state)
    (hresult : (e.apply state).result = .error (.fault fault)) :
    (e.forkchoiceUpdated v param attributes).answer = .update ⟨failedStatus fault, none⟩ := by
  rw [forkchoiceUpdated_answer]
  simp only [handle, hstate, hresult]

/-- An accepted fork choice whose pointers cannot be written stops at that fault. -/
lemma apply_of_not_writable (hunpoisoned : e.poisoned = false)
    (hresolve : e.store.chain.resolve state = .ok (.resolved new))
    (hunopposed : e.store.chain.finalityObjection? e.heads new = .ok none)
    (hwritable : ¬ (e.heads = new ∨ e.store.faults.writes = false)) :
    (e.apply state).result = .error (.fault .diskFull) := by
  have hjudge := Chain.judge_eq_resolved_iff.2 ⟨hresolve, hunopposed⟩
  simp only [apply, hunpoisoned, Bool.false_eq_true, if_false, hjudge]
  exact (move_of_not_writable hwritable).1

/-- Pointers that are in memory already are not written. -/
lemma heads?_of_unmoved {h : Heads} (haccept : e.Accepts h.request h)
    (hsame : e.heads = h) :
    (e.forkchoiceUpdated .v1 h.request.toParam none).after.store.database.heads? =
      e.store.database.heads? := by
  obtain ⟨metrics, hafter⟩ := update_of_accepts haccept
  unfold update at hafter
  rw [hafter, ← hsame, moveTo_self]

/-! ## The statement -/

/-- Every answer to a fork choice stands for all that it says, whatever the state of the engine and
of its store. -/
theorem all_or_nothing (e : Engine) (v : Version) (param : ForkchoiceParam)
    (attributes : Option PayloadAttributes)
    (hoverflow : (e.forkchoiceUpdated v param attributes).answer ≠ .overflow) :
    AllOrNothing e v param attributes (e.forkchoiceUpdated v param attributes).answer
      (e.forkchoiceUpdated v param attributes).after := by
  have h := e.answered v param attributes
  refine ⟨h.refuses_or_applies hoverflow, h.unchanged, ?_, h.latestValidHash?_of_isValid,
    h.isStale_iff, h.coordinator_of_isStale, h.payloadId?_isSome_iff⟩
  intro happlies
  obtain ⟨state, new, coordinator, metrics, hstate, haccept, hafter⟩ := h.exists_moveTo happlies
  refine ⟨state, new, (Version.validate_eq_ok_iff.1 hstate).1, haccept.resolves, ?_, ?_⟩
  · rw [hafter]
    exact currentHeads_moveTo haccept
  · rw [hafter]
    exact moveTo_heads? e new

theorem all_or_nothing_twoBlocks :
    (twoBlocks.forkchoiceUpdated .v1 firstFinalized.request.toParam none).answer ≠ .overflow ∧
      AllOrNothing twoBlocks .v1 firstFinalized.request.toParam none
        (twoBlocks.forkchoiceUpdated .v1 firstFinalized.request.toParam none).answer
        (twoBlocks.forkchoiceUpdated .v1 firstFinalized.request.toParam none).after := by
  have hoverflow :
      (twoBlocks.forkchoiceUpdated .v1 firstFinalized.request.toParam none).answer ≠
        .overflow := by
    rw [answer_of_accepts twoBlocks_accepts_first]
    exact nofun
  exact ⟨hoverflow, all_or_nothing twoBlocks .v1 _ none hoverflow⟩

/-- The second block as the head, and nothing else. -/
def secondHead : Heads := .ofGenesis secondBlock

/-- Attributes for a payload at the time of the second block. -/
def lateAttributes : PayloadAttributes := ⟨12, .zero 32, .zero 20, none, none⟩

/-- The engine while pointers cannot be written. -/
def onFullDisk (e : Engine) : Engine :=
  { e with store := { e.store with faults := { e.store.faults with writes := true } } }

/-- The engine after someone else has written pointers to its database. -/
def overwritten (e : Engine) (h : Heads) : Engine := e.withDatabase (e.store.database.setHeads h)

lemma onFullDisk_growsTo (e : Engine) : e.store.chain.GrowsTo e.onFullDisk.store.chain :=
  fun _ _ h => h

lemma overwritten_growsTo (e : Engine) (h : Heads) :
    e.store.chain.GrowsTo (e.overwritten h).store.chain :=
  fun _ _ h => h

lemma onFullDisk_resolves :
    twoBlocks.onFullDisk.store.chain.Resolves secondHead.request secondHead where
  head_ne_zero := by decide
  not_rejected := rfl
  head := stored_secondBlock.grow (onFullDisk_growsTo twoBlocks)
  safe := rfl
  finalized := rfl
  ordered := ⟨nofun, nofun, nofun⟩

lemma overwritten_accepts :
    (twoBlocks.overwritten secondHead).Accepts (Heads.ofGenesis firstBlock).request
      (.ofGenesis firstBlock) where
  unpoisoned := rfl
  resolves := Chain.resolve_eq_resolved_iff.2
    { head_ne_zero := by decide
      not_rejected := rfl
      head := stored_firstBlock.grow (overwritten_growsTo twoBlocks secondHead)
      safe := rfl
      finalized := rfl
      ordered := ⟨nofun, nofun, nofun⟩ }
  unopposed := rfl
  writable := .inl rfl

/-- A fork choice that is in order, with attributes that are not later than its head, is answered as
invalid if its pointers cannot be written.  And one that is answered as valid need not be on disk:
pointers that are in memory already are not written, even where others are on disk. -/
theorem not_all_or_nothing :
    (Version.v1.validate twoBlocks.onFullDisk.schedule secondHead.request.toParam
          (some lateAttributes) = .ok secondHead.request ∧
        twoBlocks.onFullDisk.store.chain.resolve secondHead.request =
          .ok (.resolved secondHead) ∧
        twoBlocks.onFullDisk.store.chain.finalityObjection? twoBlocks.onFullDisk.heads secondHead =
          .ok none ∧
        lateAttributes.timestamp ≤ secondHead.head.timestamp ∧
        (twoBlocks.onFullDisk.forkchoiceUpdated .v1 secondHead.request.toParam
          (some lateAttributes)).answer =
            .update ⟨failedStatus .diskFull, none⟩) ∧
      (twoBlocks.overwritten secondHead).store.chain.resolve
          (Heads.ofGenesis firstBlock).request = .ok (.resolved (.ofGenesis firstBlock)) ∧
        ((twoBlocks.overwritten secondHead).forkchoiceUpdated .v1
          (Heads.ofGenesis firstBlock).request.toParam none).answer =
            .update ⟨.valid (hashOf 1), none⟩ ∧
        ((twoBlocks.overwritten secondHead).forkchoiceUpdated .v1
          (Heads.ofGenesis firstBlock).request.toParam none).after.store.database.heads? =
            .ok (some secondHead) := by
  have hresolve := Chain.resolve_eq_resolved_iff.2 onFullDisk_resolves
  have hfault := apply_of_not_writable rfl hresolve rfl (by decide)
  exact ⟨⟨rfl, hresolve, rfl, by decide, answer_of_fault rfl hfault⟩,
    overwritten_accepts.resolves, answer_of_accepts overwritten_accepts,
    (heads?_of_unmoved overwritten_accepts rfl).trans (Database.heads?_setHeads _ secondHead)⟩

end Engine

end ChainHead
