import Mathlib.Data.List.Basic
import Mathlib.Data.List.Pairwise
import ChainHead.Schedule

/-!
# Schedules are their own milestones

A schedule lists each name once and by time, so a schedule built of its milestones is the same one
(`Schedule.ofList_milestones`).  Both steps of building a schedule leave such a list alone: no entry
finds one of its name to replace, and the order by time is there already.

Every schedule there is is built of some list (`Schedule.Built.exists_ofList`).
-/

namespace ChainHead

/-! ## Names -/

lemma SameName.symm {a b : String} (h : SameName a b) : SameName b a := Eq.symm h

lemma SameName.trans {a b c : String} (h : SameName a b) (h' : SameName b c) : SameName a c :=
  Eq.trans h h'

/-- No two milestones of the list have the same name. -/
def Milestone.NamesDiffer (ms : List Milestone) : Prop :=
  ms.Pairwise fun a b => ¬ SameName a.name b.name

namespace Milestone

variable {m : Milestone} {ms : List Milestone}

lemma mem_putInto {other : Milestone} (h : other ∈ m.putInto ms) : other = m ∨ other ∈ ms := by
  induction ms with
  | nil => exact .inl (List.mem_singleton.1 h)
  | cons first rest ih =>
    rw [putInto] at h
    split_ifs at h
    · exact (List.mem_cons.1 h).imp_right (List.mem_cons_of_mem _)
    · obtain rfl | h := List.mem_cons.1 h
      · exact .inr List.mem_cons_self
      · exact (ih h).imp_right (List.mem_cons_of_mem _)

/-- A milestone takes the place of the one of its name, or no other has its name. -/
lemma namesDiffer_putInto (h : NamesDiffer ms) : NamesDiffer (m.putInto ms) := by
  induction ms with
  | nil => exact List.pairwise_singleton _ _
  | cons first rest ih =>
    obtain ⟨hfirst, hrest⟩ := List.pairwise_cons.1 h
    rw [putInto]
    split_ifs with hname
    · exact List.pairwise_cons.2
        ⟨fun other hother hsame => hfirst other hother (hname.trans hsame), hrest⟩
    · refine List.pairwise_cons.2 ⟨fun other hother hsame => ?_, ih hrest⟩
      obtain rfl | hother := mem_putInto hother
      · exact hname hsame
      · exact hfirst other hother hsame

/-- Where no milestone has its name, it is put at the end. -/
lemma putInto_of_forall (h : ∀ other ∈ ms, ¬ SameName other.name m.name) :
    m.putInto ms = ms ++ [m] := by
  induction ms with
  | nil => rfl
  | cons first rest ih =>
    obtain ⟨hfirst, hrest⟩ := List.forall_mem_cons.1 h
    rw [putInto, if_neg hfirst, ih hrest, List.cons_append]

end Milestone

namespace Schedule

open Milestone (NamesDiffer namesDiffer_putInto putInto_of_forall)

lemma namesDiffer_lastOfEachName (ms : List Milestone) : NamesDiffer (lastOfEachName ms) :=
  ms.foldlRecOn _ List.Pairwise.nil fun _ h _ _ => namesDiffer_putInto h

lemma lastOfEachName_of_namesDiffer {ms : List Milestone} (h : NamesDiffer ms) :
    lastOfEachName ms = ms := by
  -- of a part at the start nothing is left out, and what follows it has other names
  have hfold (ms kept : List Milestone) (h : NamesDiffer (kept ++ ms)) :
      ms.foldl (fun kept m => m.putInto kept) kept = kept ++ ms := by
    induction ms generalizing kept with
    | nil => rw [List.foldl_nil, List.append_nil]
    | cons m ms ih =>
      have hput : m.putInto kept = kept ++ [m] := putInto_of_forall fun other hother =>
        (List.pairwise_append.1 h).2.2 other hother m List.mem_cons_self
      rw [List.append_cons] at h ⊢
      rw [List.foldl_cons, hput, ih _ h]
  exact hfold ms [] h

/-! The order by time is transitive and total, so the sort does what it is for. -/

lemma decide_timestamp_le_trans (a b c : Milestone)
    (hab : decide (a.timestamp ≤ b.timestamp) = true)
    (hbc : decide (b.timestamp ≤ c.timestamp) = true) :
    decide (a.timestamp ≤ c.timestamp) = true := by
  simp only [decide_eq_true_eq] at hab hbc ⊢
  exact UInt64.le_trans hab hbc

lemma decide_timestamp_le_total (a b : Milestone) :
    (decide (a.timestamp ≤ b.timestamp) || decide (b.timestamp ≤ a.timestamp)) = true := by
  simpa using UInt64.le_total a.timestamp b.timestamp

/-- The milestones of a schedule are in the order of their times. -/
lemma pairwise_milestones_ofList (ms : List Milestone) :
    (ofList ms).milestones.Pairwise fun a b => decide (a.timestamp ≤ b.timestamp) = true :=
  List.pairwise_mergeSort decide_timestamp_le_trans decide_timestamp_le_total _

lemma namesDiffer_milestones_ofList (ms : List Milestone) :
    NamesDiffer (ofList ms).milestones :=
  (namesDiffer_lastOfEachName ms).perm (List.mergeSort_perm _ _).symm
    fun hdiffer hsame => hdiffer hsame.symm

/-- A schedule is built of its own milestones. -/
theorem ofList_milestones (ms : List Milestone) : ofList (ofList ms).milestones = ofList ms := by
  have hnames := lastOfEachName_of_namesDiffer (namesDiffer_milestones_ofList ms)
  have hsorted := List.mergeSort_of_pairwise (pairwise_milestones_ofList ms)
  rw [ofList, hnames, hsorted]

/-- The schedules there are: each is made of others, or of a list of milestones. -/
inductive Built : Schedule → Prop where
  /-- The schedule of a list of milestones. -/
  | ofList (ms : List Milestone) : Built (ofList ms)
  /-- The schedule without milestones. -/
  | empty : Built empty
  /-- A schedule with further entries on top. -/
  | withOverrides {s : Schedule} (h : Built s) (ms : List Milestone) : Built (s.withOverrides ms)
  /-- The schedule of a known network. -/
  | ofNetwork {network : String} {s : Schedule} (h : ofNetwork? network = some s) : Built s

/-- Any schedule is built of a list. -/
lemma Built.exists_ofList {s : Schedule} (h : Built s) : ∃ ms, s = Schedule.ofList ms := by
  cases h with
  | ofList ms => exact ⟨ms, rfl⟩
  | empty => exact ⟨[], by simp [Schedule.ofList, lastOfEachName, Schedule.empty]⟩
  | withOverrides h ms => exact ⟨_, rfl⟩
  | ofNetwork h =>
    rw [ofNetwork?] at h
    split_ifs at h <;> cases h <;> exact ⟨_, rfl⟩

end Schedule

end ChainHead
