import Mathlib.Data.List.TakeWhile
import ChainHead.Proofs.Schedule.Entries

/-!
# Which forks are active

One may ask a schedule whether the fork of a name is active, or which milestone is the latest one
that is.  The first looks for the name, and is right because no name is there twice.  The second
takes what is active from the front, and is right because times never fall.  Every schedule that is
built has both properties (`Schedule.Built.ordered`), so the two ways agree, and as time goes on
forks become active and stay so (`Schedule.activation_agrees`).
-/

namespace ChainHead

namespace Schedule

open Milestone

variable {s : Schedule} {m : Milestone} {ms : List Milestone} {name : String} {time : UInt64}

/-- Times never fall, and no name is there twice. -/
structure Ordered (s : Schedule) : Prop where
  sorted : s.milestones.Pairwise fun a b => a.timestamp ≤ b.timestamp
  namesDiffer : NamesDiffer s.milestones

lemma ordered_ofList (ms : List Milestone) : (ofList ms).Ordered :=
  ⟨(arranges_ofList ms).sorted, (arranges_ofList ms).namesDiffer⟩

lemma Built.ordered (h : s.Built) : s.Ordered := by
  obtain ⟨ms, rfl⟩ := h.exists_ofList
  exact ordered_ofList ms

/-! ## By name -/

namespace Ordered

/-- A fork is active if it has a milestone whose time has come. -/
lemma isActive_iff (h : s.Ordered) :
    s.isActive name time = true ↔
      ∃ m ∈ s.milestones, SameName m.name name ∧ m.timestamp ≤ time := by
  have hfound (m : Milestone) : s.milestoneFor? name = some m ↔
      m ∈ s.milestones ∧ SameName m.name name := find?_eq_some_iff h.namesDiffer
  unfold isActive
  cases hname : s.milestoneFor? name with
  | none =>
    simp only [Bool.false_eq_true, false_iff]
    rintro ⟨m, hm, hsame, -⟩
    cases hname.symm.trans ((hfound m).2 ⟨hm, hsame⟩)
  | some m =>
    obtain ⟨hm, hsame⟩ := (hfound m).1 hname
    simp only [decide_eq_true_eq]
    refine ⟨fun htime => ⟨m, hm, hsame, htime⟩, fun ⟨m', hm', hsame', htime⟩ => ?_⟩
    cases hname.symm.trans ((hfound m').2 ⟨hm', hsame'⟩)
    exact htime

/-- The name of a milestone finds the milestone itself. -/
lemma isActive_iff_of_mem (h : s.Ordered) (hm : m ∈ s.milestones) :
    s.isActive m.name time = true ↔ m.timestamp ≤ time := by
  rw [h.isActive_iff]
  refine ⟨fun ⟨m', hm', hsame, htime⟩ => ?_, fun htime => ⟨m, hm, .refl _, htime⟩⟩
  have hself := (find?_eq_some_iff h.namesDiffer).2 ⟨hm, .refl m.name⟩
  cases hself.symm.trans ((find?_eq_some_iff h.namesDiffer).2 ⟨hm', hsame⟩)
  exact htime

/-! ## By time -/

/-- There is no latest milestone where the time of none has come. -/
lemma activeAt?_eq_none_iff (h : s.Ordered) :
    s.activeAt? time = none ↔ ∀ m ∈ s.milestones, ¬ m.timestamp ≤ time := by
  have hsorted := h.sorted
  rw [activeAt?, List.getLast?_eq_none_iff]
  cases hms : s.milestones with
  | nil => simp
  | cons first rest =>
    rw [hms] at hsorted
    by_cases hfirst : first.timestamp ≤ time
    · rw [List.takeWhile_cons_of_pos (by simpa using hfirst)]
      exact iff_of_false (List.cons_ne_nil _ _) fun hnone => hnone first List.mem_cons_self hfirst
    · rw [List.takeWhile_cons_of_neg (by simpa using hfirst)]
      refine iff_of_true rfl fun m hm htime => hfirst ?_
      obtain rfl | hm := List.mem_cons.1 hm
      · exact htime
      · exact UInt64.le_trans (List.rel_of_pairwise_cons hsorted hm) htime

/-- After the latest milestone stand only those whose time has not come. -/
lemma exists_of_activeAt?_eq_some (h : s.Ordered) (hm : s.activeAt? time = some m) :
    m.timestamp ≤ time ∧ ∃ before after, s.milestones = before ++ m :: after ∧
      (∀ other ∈ before, other.timestamp ≤ m.timestamp) ∧
      ∀ other ∈ after, ¬ other.timestamp ≤ time := by
  obtain ⟨before, hbefore⟩ := List.getLast?_eq_some_iff.1 hm
  set after := s.milestones.dropWhile fun m => m.timestamp ≤ time with hafter
  have hsplit : s.milestones = before ++ m :: after := by
    rw [← List.takeWhile_append_dropWhile (p := fun m : Milestone => m.timestamp ≤ time)
      (l := s.milestones), hbefore, List.append_assoc, List.singleton_append]
  have hsorted := h.sorted
  rw [hsplit, List.pairwise_append] at hsorted
  obtain ⟨-, hrest, hfirst⟩ := hsorted
  refine ⟨?_, before, after, hsplit, fun other hother => hfirst other hother m List.mem_cons_self,
    fun other hother htime => ?_⟩
  · have hmem : m ∈ s.milestones.takeWhile fun m => m.timestamp ≤ time := by simp [hbefore]
    simpa using List.mem_takeWhile_imp hmem
  · -- the first of the rest is the one where the scan stopped
    cases hrest' : after with
    | nil => simp [hrest'] at hother
    | cons next later =>
      have hnext : ¬ next.timestamp ≤ time := by
        have hhead :=
          List.head?_dropWhile_not (fun m : Milestone => m.timestamp ≤ time) s.milestones
        simpa [← hafter, hrest'] using hhead
      rw [hrest'] at hother hrest
      obtain rfl | hother := List.mem_cons.1 hother
      · exact hnext htime
      · have hle := List.rel_of_pairwise_cons (List.pairwise_cons.1 hrest).2 hother
        exact hnext (UInt64.le_trans hle htime)

lemma timestamp_le_of_activeAt? {other : Milestone} (h : s.Ordered)
    (hm : s.activeAt? time = some m) (hother : other ∈ s.milestones)
    (htime : other.timestamp ≤ time) : other.timestamp ≤ m.timestamp := by
  obtain ⟨-, before, after, hsplit, hbefore, hafter⟩ := h.exists_of_activeAt?_eq_some hm
  rw [hsplit, List.mem_append, List.mem_cons] at hother
  obtain hother | rfl | hother := hother
  · exact hbefore other hother
  · exact UInt64.le_refl _
  · exact absurd htime (hafter other hother)

lemma mem_of_activeAt? (h : s.Ordered) (hm : s.activeAt? time = some m) : m ∈ s.milestones := by
  obtain ⟨-, before, after, hsplit, -, -⟩ := h.exists_of_activeAt?_eq_some hm
  simp [hsplit]

end Ordered

/-! ## Both ways -/

/-- The two ways to ask a schedule what is active agree, and what is active stays so. -/
structure Agrees (s : Schedule) : Prop where
  /-- There is no latest milestone exactly where no fork is active. -/
  none_iff : ∀ time, s.activeAt? time = none ↔ ∀ name, s.isActive name time = false
  /-- The latest milestone is active. -/
  active : ∀ time m, s.activeAt? time = some m → s.isActive m.name time = true
  /-- No active one is of a later time, and none stands behind it. -/
  latest : ∀ time m, s.activeAt? time = some m → ∃ before after,
    s.milestones = before ++ m :: after ∧
      (∀ other ∈ s.milestones, s.isActive other.name time = true →
        other.timestamp ≤ m.timestamp) ∧
      ∀ other ∈ after, s.isActive other.name time = false
  /-- A fork that is active stays active. -/
  stays : ∀ name time time', time ≤ time' → s.isActive name time = true →
    s.isActive name time' = true
  /-- The latest milestone is followed by none of an earlier time. -/
  advances : ∀ time time' m, time ≤ time' → s.activeAt? time = some m →
    ∃ m', s.activeAt? time' = some m' ∧ m.timestamp ≤ m'.timestamp

lemma Ordered.agrees (h : s.Ordered) : s.Agrees where
  none_iff time := by
    rw [h.activeAt?_eq_none_iff]
    constructor
    · intro hnone name
      rw [Bool.eq_false_iff, ne_eq, h.isActive_iff]
      rintro ⟨m, hm, -, htime⟩
      exact hnone m hm htime
    · intro hnone m hm htime
      cases (hnone m.name).symm.trans ((h.isActive_iff_of_mem hm).2 htime)
  active time m hm :=
    (h.isActive_iff_of_mem (h.mem_of_activeAt? hm)).2 (h.exists_of_activeAt?_eq_some hm).1
  latest time m hm := by
    obtain ⟨-, before, after, hsplit, -, hafter⟩ := h.exists_of_activeAt?_eq_some hm
    refine ⟨before, after, hsplit, fun other hother hactive => ?_, fun other hother => ?_⟩
    · exact h.timestamp_le_of_activeAt? hm hother ((h.isActive_iff_of_mem hother).1 hactive)
    · have hmem : other ∈ s.milestones := by simp [hsplit, hother]
      rw [Bool.eq_false_iff, ne_eq, h.isActive_iff_of_mem hmem]
      exact hafter other hother
  stays name time time' hle hactive := by
    obtain ⟨m, hm, hname, htime⟩ := h.isActive_iff.1 hactive
    exact h.isActive_iff.2 ⟨m, hm, hname, UInt64.le_trans htime hle⟩
  advances time time' m hle hm := by
    have hmem := h.mem_of_activeAt? hm
    have htime := UInt64.le_trans (h.exists_of_activeAt?_eq_some hm).1 hle
    have hsome : s.activeAt? time' ≠ none := fun hnone =>
      h.activeAt?_eq_none_iff.1 hnone m hmem htime
    obtain ⟨m', hm'⟩ := Option.ne_none_iff_exists'.1 hsome
    exact ⟨m', hm', h.timestamp_le_of_activeAt? hm' hmem htime⟩

/-- In every schedule that is built, of any list and with any overrides, the latest active milestone
and the forks that are active agree at all times. -/
theorem activation_agrees (h : s.Built) : s.Agrees := h.ordered.agrees

/-- The main network with one fork moved before all others and one more at the time of another. -/
def rearranged : Schedule := mainnet.withOverrides [⟨"cancun", 5⟩, ⟨"Osaka", 1681338455⟩]

lemma milestones_rearranged : rearranged.milestones = [⟨"cancun", 5⟩, ⟨"Paris", 1663224179⟩,
    ⟨"Shanghai", 1681338455⟩, ⟨"Osaka", 1681338455⟩, ⟨"Prague", 1746612311⟩] := by
  -- the preset is written in the order of its times already
  have hpreset : mainnet.milestones = [⟨"Paris", 1663224179⟩, ⟨"Shanghai", 1681338455⟩,
      ⟨"Cancun", 1710338135⟩, ⟨"Prague", 1746612311⟩] := by
    rw [mainnet, ofList, lastOfEachName_of_namesDiffer (by unfold NamesDiffer; decide +kernel)]
    exact List.mergeSort_of_pairwise (by decide)
  have hlast : lastOfEachName (mainnet.milestones ++ [⟨"cancun", 5⟩, ⟨"Osaka", 1681338455⟩]) =
      [⟨"Paris", 1663224179⟩, ⟨"Shanghai", 1681338455⟩, ⟨"cancun", 5⟩, ⟨"Prague", 1746612311⟩,
        ⟨"Osaka", 1681338455⟩] := by
    rw [hpreset]
    decide +kernel
  rw [rearranged, withOverrides, ofList, hlast]
  simp [List.mergeSort]

/-- No fork is active before the first one.  Where two begin at one time, the latest is the one that
was put in later. -/
theorem activation_agrees_rearranged :
    rearranged.Built ∧ rearranged.Agrees ∧
      (rearranged.activeAt? 4 = none ∧ rearranged.isActive "Cancun" 4 = false) ∧
      (rearranged.activeAt? 5 = some ⟨"cancun", 5⟩ ∧ rearranged.isActive "Cancun" 5 = true) ∧
      rearranged.activeAt? 1681338455 = some ⟨"Osaka", 1681338455⟩ ∧
      rearranged.isActive "Shanghai" 1681338455 = true ∧
      rearranged.isActive "Prague" 1681338455 = false := by
  have hbuilt : rearranged.Built := .withOverrides (.ofList _) _
  refine ⟨hbuilt, activation_agrees hbuilt, ?_⟩
  simp only [activeAt?, isActive, milestoneFor?, milestones_rearranged]
  decide +kernel

end Schedule

end ChainHead
