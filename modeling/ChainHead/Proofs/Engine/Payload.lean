import ChainHead.Proofs.Build.Delivery
import ChainHead.Proofs.Engine.Run
import ChainHead.Service

/-!
# The payload of an answer can be fetched

An answer that names a payload started a job on the new head.  Until another request arrives the
head stays where it is and nobody takes the job off the table, so the job publishes a payload, and
that one is fetched (`Engine.payload_delivered`).

What the service does between two calls, letting jobs settle after the one and time pass until the
other, is such a time without requests (`Engine.idles_between`).
-/

namespace ChainHead

namespace Engine

variable {e after later : Engine} {v : Version} {param : ForkchoiceParam} {a : PayloadAttributes}
  {hash : Hash} {id : PayloadId}

/-- The later engine comes of the other while no request reaches it: time goes on, and jobs work. -/
def Idles (e later : Engine) : Prop :=
  ∃ coordinator,
    Relation.ReflTransGen (Coordinator.Passes e.jobHead) e.coordinator coordinator ∧
      later = { e with coordinator }

lemma Idles.trans {between : Engine} (h : Idles e between) (h' : Idles between later) :
    Idles e later := by
  obtain ⟨coordinator, hpasses, rfl⟩ := h
  obtain ⟨coordinator', hpasses', rfl⟩ := h'
  exact ⟨coordinator', hpasses.trans hpasses', rfl⟩

lemma idles_settle (e : Engine) : Idles e (Service.settle e).2 :=
  ⟨_, (Relation.ReflTransGen.single .settle).tail .clearJournal, rfl⟩

lemma idles_passTime (e : Engine) (now : Nat) : Idles e (Service.passTime e now).2 :=
  ⟨_, (Relation.ReflTransGen.single (.runUntil (Nat.le_max_right _ _))).tail .clearJournal, rfl⟩

/-- From one call to the next no request reaches the engine. -/
lemma idles_between (e : Engine) (now : Nat) :
    Idles e (Service.passTime (Service.settle e).2 now).2 :=
  (idles_settle e).trans (idles_passTime _ now)

/-- Where an answer names a payload and there is a height above the head, fetching it before another
request arrives gives a payload: the block without transactions that the attributes ask for on the
head, later than the head.  This is so for every timing of the jobs and whatever jobs there are. -/
theorem payload_delivered (hscript : e.coordinator.script = [])
    (hanswer : (e.forkchoiceUpdated v param (some a)).answer = .update ⟨.valid hash, some id⟩)
    (hafter : (e.forkchoiceUpdated v param (some a)).after = after)
    (hroom : after.heads.head.HasRoom) (hidles : Idles after later) :
    ∃ p, (later.getPayload id).1 = .ok p ∧ p.Fulfils after.heads.head a ∧
      after.heads.head.hash = hash ∧ after.heads.head.timestamp < p.timestamp := by
  have hends := e.answered v param (some a)
  rw [hanswer, hafter] at hends
  obtain ⟨state, new, _, metrics, haccept, ⟨⟩, htime, ⟨⟩, hid, rfl⟩ := hends.started
  simp only [moveTo_heads] at hroom ⊢
  -- the job was started on the head that jobs see from now on
  have hhead (c : Coordinator) :
      { e.moveTo new with coordinator := c, metrics }.jobHead = some new.head.hash := by
    simp only [jobHead, moveTo_poisoned, haccept.unpoisoned, moveTo_heads]
    rfl
  obtain ⟨coordinator, hpasses, rfl⟩ := hidles
  rw [hhead] at hpasses
  obtain ⟨hholds, hready⟩ := Coordinator.holds_start hscript hid
  obtain ⟨hholds, hready⟩ := Coordinator.holds_of_passes hpasses hroom hholds hready
  obtain ⟨p, hp, hfulfils⟩ := hholds.retrieve hroom hready
  refine ⟨p, ?_, hfulfils, trivial, hfulfils.timestamp.symm ▸ htime⟩
  simp only [getPayload, hhead, hp]

/-! ### A payload on the second block -/

/-- A fork choice that is accepted starts the job that its attributes ask for. -/
lemma building_of_accepts {state : ForkchoiceState} {new : Heads}
    (hstate : v.validate e.schedule param (some a) = .ok state) (haccept : e.Accepts state new)
    (htime : new.head.timestamp < a.timestamp)
    (hid : (e.coordinator.start new.head a).result = .ok id) :
    (e.forkchoiceUpdated v param (some a)).answer = .update ⟨.valid new.head.hash, some id⟩ ∧
      (e.forkchoiceUpdated v param (some a)).after.heads = new := by
  obtain ⟨hresult, hafter⟩ := apply_of_accepts haccept
  obtain ⟨metrics, hmetrics⟩ := e.forkchoiceUpdated_after v param (some a)
  rw [forkchoiceUpdated_answer, hmetrics]
  have hbuild := buildOn_of_isHead (isHead_moveTo haccept.unpoisoned new) (UInt64.not_le.2 htime)
  simp only [handle, hstate, hresult, hafter, hbuild, startOn_answer, startOn_after,
    moveTo_coordinator, hid, moveTo_heads, Except.toOption, and_self]

/-- Attributes for a payload after the second block. -/
def thirdAttributes : PayloadAttributes := ⟨24, hashOf 9, .zero 20, none, none⟩

lemma start_thirdAttributes :
    (twoBlocks.coordinator.start firstFinalized.head thirdAttributes).result =
      .ok (Coordinator.draw 0) := rfl

lemma building_thirdAttributes :
    (twoBlocks.forkchoiceUpdated .v1 firstFinalized.request.toParam
        (some thirdAttributes)).answer = .update ⟨.valid (hashOf 2), some (Coordinator.draw 0)⟩ ∧
      (twoBlocks.forkchoiceUpdated .v1 firstFinalized.request.toParam
        (some thirdAttributes)).after.heads = firstFinalized :=
  building_of_accepts rfl twoBlocks_accepts_first (by decide) start_thirdAttributes

theorem payload_delivered_thirdAttributes :
    twoBlocks.coordinator.script = [] ∧
      (twoBlocks.forkchoiceUpdated .v1 firstFinalized.request.toParam
        (some thirdAttributes)).answer = .update ⟨.valid (hashOf 2), some (Coordinator.draw 0)⟩ ∧
      ∃ after, (twoBlocks.forkchoiceUpdated .v1 firstFinalized.request.toParam
          (some thirdAttributes)).after = after ∧
        after.heads.head.HasRoom ∧ Idles after (Service.passTime (Service.settle after).2 5000).2 ∧
        ∃ p, ((Service.passTime (Service.settle after).2 5000).2.getPayload
            (Coordinator.draw 0)).1 = .ok p ∧
          p.Fulfils after.heads.head thirdAttributes ∧ after.heads.head.hash = hashOf 2 ∧
          after.heads.head.timestamp < p.timestamp := by
  obtain ⟨hanswer, hheads⟩ := building_thirdAttributes
  obtain ⟨after, hafter⟩ : ∃ after, (twoBlocks.forkchoiceUpdated .v1
    firstFinalized.request.toParam (some thirdAttributes)).after = after := ⟨_, rfl⟩
  have hroom : after.heads.head.HasRoom := by
    rw [← hafter, hheads]
    simp [Block.HasRoom, firstFinalized, secondBlock, UInt64.size]
  have hidles := idles_between after 5000
  exact ⟨rfl, hanswer, after, hafter, hroom, hidles,
    payload_delivered rfl hanswer hafter hroom hidles⟩

end Engine

end ChainHead
