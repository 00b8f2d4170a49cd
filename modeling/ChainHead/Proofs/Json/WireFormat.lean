import ChainHead.Build.Timing
import ChainHead.Payload.Built
import ChainHead.Payload.Status
import ChainHead.Proofs.Failure
import ChainHead.Proofs.Json.Records
import ChainHead.Proofs.Schedule
import ChainHead.Request

/-!
# The wire format reads back what it writes

Whatever is put on the wire is read as the value it was written for (`Json.wireFormat_roundTrips`).
Two types keep something back.  The round of a payload is not written, so a payload is read as that
of the first round.  And a list of milestones is read as the schedule that it describes, which is
the one it was written for.

Each record is followed through its form, field by field (`Json.Form.Renders`), and a status, which
has no form, through its two rounds of reading.
-/

namespace ChainHead

open Json (Spells spells_bytes spells_byteString spells_list spells_option spells_quantity
  spells_string spells_word)
open Json.Form.Renders (defaulted optional record required trailing)

/-! ## Records -/

lemma Heads.spells (n : Nat) (h : Heads) : Spells (n + 2) Heads.form.read h.toJson h :=
  have hblock := spells_option (Block.spells n) fun _ => nofun
  record (.seq (.seq (.map _
    (required "head" (h.head.spells n)))
    (optional "safe" (hblock h.safe)))
    (optional "finalized" (hblock h.finalized))) (by decide)

lemma ForkchoiceState.spells (n : Nat) (s : ForkchoiceState) :
    Spells (n + 1) ForkchoiceState.form.read s.toJson s :=
  record (.seq (.seq (.map _
    (required "headBlockHash" (spells_bytes n s.headBlockHash)))
    (required "safeBlockHash" (spells_bytes n s.safeBlockHash)))
    (required "finalizedBlockHash" (spells_bytes n s.finalizedBlockHash))) (by decide)

lemma ForkchoiceParam.spells (n : Nat) (s : ForkchoiceParam) :
    Spells (n + 1) ForkchoiceParam.form.read s.toJson s :=
  have hhash := spells_option (spells_bytes n) fun _ => nofun
  record (.seq (.seq (.map _
    (optional "headBlockHash" (hhash s.headBlockHash)))
    (optional "safeBlockHash" (hhash s.safeBlockHash)))
    (optional "finalizedBlockHash" (hhash s.finalizedBlockHash))) (by decide)

lemma Timing.spells (n : Nat) (t : Timing) : Spells (n + 1) Timing.form.read t.toJson t :=
  record (.seq (.map _
    (defaulted "interval_ms" 500 (spells_word n t.intervalMs)))
    (defaulted "deadline_ms" 12000 (spells_word n t.deadlineMs))) (by decide)

lemma Withdrawal.spells (n : Nat) (w : Withdrawal) :
    Spells (n + 1) Withdrawal.form.read w.toJson w :=
  record (.seq (.seq (.seq (.map _
    (required "index" (spells_quantity n w.index)))
    (required "validatorIndex" (spells_quantity n w.validatorIndex)))
    (required "address" (spells_bytes n w.address)))
    (required "amount" (spells_quantity n w.amount))) (by decide)

lemma Withdrawal.spells_listToJson (n : Nat) (ws : List Withdrawal) :
    Spells (n + 2) (Json.readList Withdrawal.form.read) (listToJson ws) ws :=
  spells_list (Withdrawal.spells n) ws

lemma PayloadAttributes.spells (n : Nat) (a : PayloadAttributes) :
    Spells (n + 3) PayloadAttributes.form.read a.toJson a :=
  record (.seq (.seq (.seq (.seq (.map _
    (required "timestamp" (spells_quantity _ a.timestamp)))
    (required "prevRandao" (spells_bytes _ a.prevRandao)))
    (required "suggestedFeeRecipient" (spells_bytes _ a.suggestedFeeRecipient)))
    (trailing "withdrawals" (Withdrawal.spells_listToJson n) (fun _ => nofun) a.withdrawals))
    (trailing "parentBeaconBlockRoot" (spells_bytes _) (fun _ => nofun) a.parentBeaconBlockRoot))
    (by decide)

/-! ## Built payloads -/

namespace BlockValue

/-- A digit that stands behind a value makes it a larger one, if that still fits. -/
lemma ofDigits?_cons {c : Char} {value d : Nat} (hc : Hex.IsDigit c d)
    (hvalue : 16 * value + d < 2 ^ 256) (rest : List Char) :
    ofDigits? 16 (c :: rest) value = ofDigits? 16 rest (16 * value + d) := by
  have hdigit : digit? 16 c = some d := by
    rw [digit?, Hex.digit?_eq_some_iff.2 hc, Option.bind_some, if_pos hc.1]
  rw [ofDigits?]
  · simp only [hdigit, Option.bind_eq_bind, Option.bind_some]
    exact if_pos hvalue
  · rintro rfl
    have hunderscore : digit? 16 '_' = none := by decide
    cases hunderscore.symm.trans hdigit

/-- Digits that spell a number are read as that number, whatever follows them. -/
lemma ofDigits?_append {cs : List Char} {n : Nat} (h : Hex.Spells cs n) (hn : n < 2 ^ 256)
    (rest : List Char) : ofDigits? 16 (cs ++ rest) 0 = ofDigits? 16 rest n := by
  induction cs using List.reverseRecOn generalizing n rest with
  | nil => rw [Hex.spells_nil_iff.1 h, List.nil_append]
  | append_singleton cs c ih =>
    obtain ⟨m, d, hm, hc, rfl⟩ := Hex.spells_concat_iff.1 h
    rw [List.append_assoc, List.singleton_append, ih hm (by omega), ofDigits?_cons hc hn]

lemma spells (n : Nat) (v : BlockValue) : Spells n BlockValue.read v.toJson v := by
  refine ⟨?_, trivial, Nat.zero_le n⟩
  have hdigits := ofDigits?_append (Hex.spells_ofNat v.toNat) v.isLt []
  rw [List.append_nil] at hdigits
  simp only [read, Json.readWith, toJson, ofText?, String.toList_ofList, hdigits, ofDigits?,
    BitVec.ofNat_toNat, BitVec.setWidth_eq]

end BlockValue

/-- A payload is read as that of the first round. -/
lemma BuiltPayload.spells (n : Nat) (p : BuiltPayload) :
    Spells (n + 3) BuiltPayload.form.read p.toJson { p with iteration := 0 } :=
  have htransactions := spells_list (spells_byteString (n + 1)) p.transactions
  record (.seq (.seq (.seq (.seq (.seq (.seq (.seq (.seq (.seq (.map _
    (required "parentHash" (spells_bytes _ p.parentHash)))
    (required "feeRecipient" (spells_bytes _ p.feeRecipient)))
    (required "prevRandao" (spells_bytes _ p.prevRandao)))
    (required "blockNumber" (spells_quantity _ p.blockNumber)))
    (required "timestamp" (spells_quantity _ p.timestamp)))
    (required "blockHash" (spells_bytes _ p.blockHash)))
    (required "transactions" htransactions))
    (trailing "withdrawals" (Withdrawal.spells_listToJson n) (fun _ => nofun) p.withdrawals))
    (trailing "parentBeaconBlockRoot" (spells_bytes _) (fun _ => nofun) p.parentBeaconBlockRoot))
    (required "blockValue" (p.blockValue.spells _))) (by decide)

/-! ## Statuses -/

namespace Verdict

variable {α : Type} {name : String} {read : Json.Reading α}

/-- Fields of other names are passed over. -/
lemma readOnce_of_forall {fields : List (String × Json)} (h : ∀ p ∈ fields, p.1 ≠ name)
    (found : Option α) : readOnce name read fields found = .ok found := by
  induction fields with
  | nil => rfl
  | cons p fields ih =>
    obtain ⟨given, j⟩ := p
    obtain ⟨hp, hfields⟩ := List.forall_mem_cons.1 h
    simp only [readOnce, if_neg hp, ih hfields]

/-- The only field of its name is read. -/
lemma readOnce_of_mem {j : Json} {a : α} (before after : List (String × Json))
    (hread : read j = .ok a) (hbefore : ∀ p ∈ before, p.1 ≠ name)
    (hafter : ∀ p ∈ after, p.1 ≠ name) :
    readOnce name read (before ++ (name, j) :: after) none = .ok (some a) := by
  induction before with
  | nil =>
    simp only [List.nil_append, readOnce, if_true, hread]
    exact readOnce_of_forall hafter _
  | cons p before ih =>
    obtain ⟨given, k⟩ := p
    obtain ⟨hp, hbefore⟩ := List.forall_mem_cons.1 hbefore
    simp only [List.cons_append, readOnce, if_neg hp, ih hbefore]

lemma fst_eq_of_mem_fieldIfSet {write : α → Json} {o : Option α} {p : String × Json}
    (h : p ∈ Json.fieldIfSet name write o) : p.1 = name := by
  cases o with
  | none => cases h
  | some a => exact congrArg Prod.fst (List.mem_singleton.1 h)

lemma readName_name (v : Verdict) : readName (.str v.name) = .ok v.name := by
  cases v <;> rfl

/-- The verdict is read from its fields, with those of other names behind them. -/
lemma ofFields_toFields (v : Verdict) (after : List (String × Json))
    (hstatus : ∀ p ∈ after, p.1 ≠ "status") (hreason : ∀ p ∈ after, p.1 ≠ "validationError") :
    ofFields (v.toFields ++ after) = .ok v := by
  have hname : readOnce "status" readName (v.toFields ++ after) none = .ok (some v.name) := by
    refine readOnce_of_mem [] _ (readName_name v) nofun fun p hp => ?_
    obtain hp | hp := List.mem_append.1 hp
    · rw [fst_eq_of_mem_fieldIfSet hp]
      decide
    · exact hstatus p hp
  cases v with
  | invalid reason =>
    have hreason : readOnce "validationError" Json.readString
        ((invalid reason).toFields ++ after) none = .ok (some reason) :=
      readOnce_of_mem [("status", .str "INVALID")] after rfl (by simp) hreason
    rw [ofFields, hname]
    show (readOnce "validationError" Json.readString _ none >>= _) = _
    rw [hreason]
    rfl
  | valid | syncing | accepted =>
    rw [ofFields, hname]
    rfl

end Verdict

lemma PayloadStatus.spells (n : Nat) (s : PayloadStatus) :
    Spells (n + 1) PayloadStatus.read s.toJson s := by
  obtain ⟨v, o⟩ := s
  have hhash := spells_option (spells_bytes n) (fun _ => nofun) o
  have hplain : ∀ p ∈ v.toFields, p.2.Plain ∧ p.2.depth ≤ n ∧ p.1 ≠ "latestValidHash" := by
    cases v <;>
      simp [Verdict.toFields, Verdict.reason?, Json.fieldIfSet, Json.Plain, Json.depth]
  refine ⟨?_, (Json.fieldsPlain_iff _).2 ?_, Nat.succ_le_succ ((Json.fieldsDepth_le_iff _).2 ?_)⟩
  · have hread := Verdict.readOnce_of_mem v.toFields [] hhash.read_eq
      (fun p hp => (hplain p hp).2.2) nofun
    have hverdict := v.ofFields_toFields [("latestValidHash", Json.ofOption Json.ofBytes o)]
      (by simp) (by simp)
    rw [toJson, read, hread]
    show (Verdict.ofFields _ >>= _) = _
    rw [hverdict]
    rfl
  · exact List.forall_mem_append.2
      ⟨fun p hp => (hplain p hp).1, List.forall_mem_singleton.2 hhash.plain⟩
  · exact List.forall_mem_append.2
      ⟨fun p hp => (hplain p hp).2.1, List.forall_mem_singleton.2 hhash.depth_le⟩

lemma ForkChoiceUpdate.spells (n : Nat) (u : ForkChoiceUpdate) :
    Spells (n + 2) ForkChoiceUpdate.form.read u.toJson u :=
  record (.seq (.map _
    (required "payloadStatus" (u.payloadStatus.spells n)))
    (optional "payloadId" (spells_option (spells_bytes _) (fun _ => nofun) u.payloadId)))
    (by decide)

/-! ## Schedules -/

lemma Milestone.spells (n : Nat) (m : Milestone) : Spells (n + 1) Milestone.form.read m.toJson m :=
  record (.seq (.map _
    (required "name" (spells_string n m.name)))
    (required "timestamp" (spells_word n m.timestamp))) (by decide)

namespace Schedule

/-- A list of milestones is read as the schedule that it describes. -/
lemma spells_ofList_milestones (n : Nat) (s : Schedule) :
    Spells (n + 2) Schedule.read s.toJson (ofList s.milestones) :=
  have hlist := spells_list (Milestone.spells n) s.milestones
  ⟨congrArg (Except.map ofList) hlist.read_eq, hlist.plain, hlist.depth_le⟩

lemma Built.spells {s : Schedule} (h : Built s) (n : Nat) :
    Spells (n + 2) Schedule.read s.toJson s := by
  obtain ⟨ms, rfl⟩ := h.exists_ofList
  have hspells := spells_ofList_milestones n (Schedule.ofList ms)
  rwa [ofList_milestones] at hspells

lemma Built.of_read {j : Json} {s : Schedule} (h : read j = .ok s) : Built s := by
  obtain ⟨ms, -, rfl⟩ := map_eq_ok_iff.1 h
  exact .ofList ms

end Schedule

/-! ## The round of a payload that is read -/

namespace Json

variable {α β : Type}

/-- Whatever is built by the form has the property. -/
def Form.Yields (form : Form α) (P : α → Prop) : Prop :=
  ∀ get a, form.build get = .ok a → P a

namespace Form.Yields

lemma map {form : Form α} {f : α → β} {P : β → Prop} (h : ∀ a, P (f a)) :
    (f <$> form).Yields P := by
  intro get b hbuild
  obtain ⟨a, -, rfl⟩ := map_eq_ok_iff.1 (show (form.build get).map f = .ok b from hbuild)
  exact h a

lemma seq {form : Form (α → β)} {next : Form α} {P : β → Prop}
    (h : form.Yields fun f => ∀ a, P (f a)) : (form <*> next).Yields P := by
  intro get b hbuild
  obtain ⟨f, hf, hbuild⟩ := bind_eq_ok_iff.1 hbuild
  obtain ⟨a, -, hbuild⟩ := bind_eq_ok_iff.1 hbuild
  cases hbuild
  exact h get f hf a

/-- So has whatever is read by it. -/
lemma of_read {form : Form α} {P : α → Prop} (hform : form.Yields P) {j : Json} {a : α}
    (h : form.read j = .ok a) : P a := by
  unfold read at h
  split at h
  · obtain ⟨-, -, h⟩ := bind_eq_ok_iff.1 h
    exact hform _ a h
  · obtain ⟨-, -, h⟩ := bind_eq_ok_iff.1 h
    split_ifs at h
    exact hform _ a h
  · cases h

end Form.Yields

end Json

lemma BuiltPayload.iteration_of_read {j : Json} {p : BuiltPayload}
    (h : form.read j = .ok p) : p.iteration = 0 :=
  have hform : form.Yields fun p => p.iteration = 0 := .seq <| .seq <| .seq <| .seq <| .seq <|
    .seq <| .seq <| .seq <| .seq <| .map fun _ _ _ _ _ _ _ _ _ _ => rfl
  hform.of_read h

/-! ## The wire format -/

namespace Json

variable {α : Type} {Genuine : α → Prop} {read : Reading α} {write : α → Json}

/-- Every genuine value is read from its own text.  What is read from any text is genuine, so its
own text is read as the same value again, for which the same text is written. -/
structure RoundTrips (Genuine : α → Prop) (read : Reading α) (write : α → Json) : Prop where
  decode_text (a : α) (h : Genuine a) : decode read (write a).text = .ok a
  decode_again (text : String) (a : α) (h : decode read text = .ok a) :
    Genuine a ∧ ∃ again, decode read (write a).text = .ok again ∧
      again = a ∧ (write again).text = (write a).text

lemma RoundTrips.of_spells (hspells : ∀ a, Genuine a → Spells maxDepth read (write a) a)
    (hread : ∀ j a, read j = .ok a → Genuine a) : RoundTrips Genuine read write where
  decode_text a h := (hspells a h).decode_text
  decode_again text a h := by
    have hgenuine : Genuine a := by
      rw [decode] at h
      split at h
      · exact hread _ a h
      · cases h
    exact ⟨hgenuine, a, (hspells a hgenuine).decode_text, rfl, rfl⟩

lemma RoundTrips.of_spells_all (hspells : ∀ a, Spells maxDepth read (write a) a) :
    RoundTrips (fun _ => True) read write :=
  .of_spells (fun a _ => hspells a) fun _ _ _ => trivial

/-- Whatever is put on the wire is read as it was, a schedule if there is such a schedule, and a
payload but for its round.  What is read from any text is written and read without change. -/
theorem wireFormat_roundTrips :
    RoundTrips (fun _ => True) Block.form.read Block.toJson ∧
    RoundTrips (fun _ => True) Heads.form.read Heads.toJson ∧
    RoundTrips (fun _ => True) BadBlock.form.read BadBlock.toJson ∧
    RoundTrips (fun _ => True) PayloadAttributes.form.read PayloadAttributes.toJson ∧
    RoundTrips (fun _ => True) Withdrawal.form.read Withdrawal.toJson ∧
    RoundTrips (fun _ => True) (readBytes 8) (ofBytes : PayloadId → Json) ∧
    RoundTrips (fun _ => True) PayloadStatus.read PayloadStatus.toJson ∧
    RoundTrips (fun _ => True) ForkChoiceUpdate.form.read ForkChoiceUpdate.toJson ∧
    RoundTrips (fun _ => True) ForkchoiceState.form.read ForkchoiceState.toJson ∧
    RoundTrips (fun _ => True) ForkchoiceParam.form.read ForkchoiceParam.toJson ∧
    RoundTrips (fun _ => True) Milestone.form.read Milestone.toJson ∧
    RoundTrips (fun _ => True) Timing.form.read Timing.toJson ∧
    RoundTrips Schedule.Built Schedule.read Schedule.toJson ∧
    RoundTrips (fun p => p.iteration = 0) BuiltPayload.form.read BuiltPayload.toJson ∧
    ∀ p : BuiltPayload,
      decode BuiltPayload.form.read p.toJson.text = .ok { p with iteration := 0 } :=
  ⟨.of_spells_all (Block.spells _),
    .of_spells_all (Heads.spells _),
    .of_spells_all (BadBlock.spells _),
    .of_spells_all (PayloadAttributes.spells _),
    .of_spells_all (Withdrawal.spells _),
    .of_spells_all (spells_bytes _),
    .of_spells_all (PayloadStatus.spells _),
    .of_spells_all (ForkChoiceUpdate.spells _),
    .of_spells_all (ForkchoiceState.spells _),
    .of_spells_all (ForkchoiceParam.spells _),
    .of_spells_all (Milestone.spells _),
    .of_spells_all (Timing.spells _),
    .of_spells (fun _ h => h.spells _) fun _ _ => Schedule.Built.of_read,
    .of_spells
      (fun p h => by
        have hspells := p.spells (maxDepth - 3)
        rwa [← h] at hspells)
      fun _ _ => BuiltPayload.iteration_of_read,
    fun p => (p.spells _).decode_text⟩

end Json

end ChainHead
