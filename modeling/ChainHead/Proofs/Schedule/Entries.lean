import Mathlib.Data.List.Induction
import Mathlib.Data.List.Nodup
import Mathlib.Data.List.Pairwise
import ChainHead.Proofs.Schedule

/-!
# Which entries make a schedule

Of all entries for one fork a schedule holds the last one.  It holds them by time, and those of one
time in the order in which their forks first occur (`Schedule.Arranges`).  A list of entries and
these rules leave one schedule only, and this is the one that `Schedule.ofList` builds
(`Schedule.ofList_arranges`).

The last entry takes the place of the first, so the names of what is kept are those of the whole
list, each where it first occurs (`Milestone.names_putInto`).  The sort keeps that order within one
time, because entries of one time are in order already (`Schedule.filter_milestones`).
-/

namespace ChainHead

/-! ## Names -/

@[refl] lemma SameName.refl (a : String) : SameName a a := Eq.refl _

lemma sameName_comm {a b : String} : SameName a b ↔ SameName b a := ⟨.symm, .symm⟩

/-- Of a name, what counts where names are compared. -/
def foldName (name : String) : List Char := name.toList.map Char.toLower

lemma sameName_iff {a b : String} : SameName a b ↔ foldName a = foldName b := .rfl

namespace Milestone

variable {m other : Milestone} {ms : List Milestone} {name name' : String}

/-- The names of the milestones, as they are compared. -/
def names (ms : List Milestone) : List (List Char) := ms.map fun m => foldName m.name

/-! ## The last entry and the first place -/

/-- The last entry with a name. -/
def lastNamed? (name : String) (ms : List Milestone) : Option Milestone :=
  ms.reverse.find? fun m => SameName m.name name

/-- The place where a name first occurs. -/
def firstPlace (name : String) (ms : List Milestone) : Nat :=
  ms.findIdx fun m => SameName m.name name

lemma lastNamed?_append (name : String) (ms ms' : List Milestone) :
    lastNamed? name (ms ++ ms') = (lastNamed? name ms').or (lastNamed? name ms) := by
  rw [lastNamed?, List.reverse_append, List.find?_append]
  rfl

lemma lastNamed?_concat (name : String) (ms : List Milestone) (m : Milestone) :
    lastNamed? name (ms ++ [m]) = if SameName m.name name then some m else lastNamed? name ms := by
  rw [lastNamed?_append]
  by_cases hname : SameName m.name name <;> simp [lastNamed?, hname]

lemma sameName_of_lastNamed? (h : lastNamed? name ms = some m) : SameName m.name name := by
  simpa using List.find?_some h

lemma lastNamed?_congr (h : SameName name name') (ms : List Milestone) :
    lastNamed? name ms = lastNamed? name' ms := by
  have hiff (m : Milestone) : SameName m.name name ↔ SameName m.name name' :=
    ⟨fun hname => hname.trans h, fun hname => hname.trans h.symm⟩
  simp only [lastNamed?, hiff]

lemma firstPlace_eq_idxOf (name : String) (ms : List Milestone) :
    firstPlace name ms = (names ms).idxOf (foldName name) := by
  rw [List.idxOf, names, List.findIdx_map, firstPlace]
  congr 1
  funext m
  rw [Bool.eq_iff_iff]
  simp [sameName_iff]

/-! ## What is kept -/

lemma NamesDiffer.nodup (h : NamesDiffer ms) : ms.Nodup := by
  refine h.imp ?_
  rintro a _ hdiffer rfl
  exact hdiffer (.refl a.name)

/-- Where names differ, a name finds the entry that has it. -/
lemma find?_eq_some_iff (h : NamesDiffer ms) :
    ms.find? (fun m => SameName m.name name) = some m ↔ m ∈ ms ∧ SameName m.name name := by
  induction ms with
  | nil => simp
  | cons first rest ih =>
    obtain ⟨hfirst, hrest⟩ := List.pairwise_cons.1 h
    by_cases hname : SameName first.name name
    · rw [List.find?_cons_of_pos (by simpa using hname), Option.some.injEq, List.mem_cons]
      refine ⟨fun heq => heq ▸ ⟨.inl rfl, hname⟩, fun ⟨hmem, hname'⟩ => ?_⟩
      obtain heq | hmem := hmem
      · exact heq.symm
      · exact absurd (hname.trans hname'.symm) (hfirst m hmem)
    · rw [List.find?_cons_of_neg (by simpa using hname), ih hrest, List.mem_cons]
      refine and_congr_left fun hname' => (or_iff_right ?_).symm
      rintro rfl
      exact hname hname'

/-- An entry pushes out the one of its name, and no other. -/
lemma mem_putInto_iff (h : NamesDiffer ms) :
    other ∈ m.putInto ms ↔ other = m ∨ (other ∈ ms ∧ ¬ SameName other.name m.name) := by
  induction ms with
  | nil => simp [putInto]
  | cons first rest ih =>
    obtain ⟨hfirst, hrest⟩ := List.pairwise_cons.1 h
    rw [putInto, List.mem_cons]
    split_ifs with hname
    · rw [List.mem_cons]
      refine or_congr_right ⟨fun hmem => ⟨.inr hmem, fun hsame => ?_⟩, ?_⟩
      · exact hfirst other hmem (hname.trans hsame.symm)
      · rintro ⟨rfl | hmem, hdiffer⟩
        · exact absurd hname hdiffer
        · exact hmem
    · rw [List.mem_cons, ih hrest]
      constructor
      · rintro (rfl | rfl | ⟨hmem, hdiffer⟩)
        · exact .inr ⟨.inl rfl, hname⟩
        · exact .inl rfl
        · exact .inr ⟨.inr hmem, hdiffer⟩
      · rintro (rfl | ⟨rfl | hmem, hdiffer⟩)
        · exact .inr (.inl rfl)
        · exact .inl rfl
        · exact .inr (.inr ⟨hmem, hdiffer⟩)

/-- A name keeps its place, and a new one is put behind the others. -/
lemma names_putInto (m : Milestone) (ms : List Milestone) :
    names (m.putInto ms) =
      if foldName m.name ∈ names ms then names ms else names ms ++ [foldName m.name] := by
  induction ms with
  | nil => rfl
  | cons first rest ih =>
    have hnames (first : Milestone) (rest : List Milestone) :
        names (first :: rest) = foldName first.name :: names rest := rfl
    rw [putInto]
    by_cases hname : SameName first.name m.name
    · rw [if_pos hname, hnames, hnames, sameName_iff.1 hname, if_pos List.mem_cons_self]
    · have hne : foldName m.name ≠ foldName first.name := fun heq => hname heq.symm
      have hmem : foldName m.name ∈ names (first :: rest) ↔ foldName m.name ∈ names rest := by
        rw [hnames, List.mem_cons, or_iff_right hne]
      rw [if_neg hname, hnames, ih]
      simp only [hmem]
      split_ifs <;> rfl

end Milestone

namespace Schedule

open Milestone

variable {s s' : Schedule} {m : Milestone} {ms : List Milestone} {name : String}

lemma lastOfEachName_concat (ms : List Milestone) (m : Milestone) :
    lastOfEachName (ms ++ [m]) = m.putInto (lastOfEachName ms) := by
  rw [lastOfEachName, List.foldl_append]
  rfl

/-- What is kept of each name is its last entry. -/
lemma mem_lastOfEachName_iff (ms : List Milestone) (m : Milestone) :
    m ∈ lastOfEachName ms ↔ lastNamed? m.name ms = some m := by
  induction ms using List.reverseRecOn with
  | nil => simp [lastOfEachName, lastNamed?]
  | append_singleton ms last ih =>
    rw [lastOfEachName_concat, mem_putInto_iff (namesDiffer_lastOfEachName ms), ih,
      lastNamed?_concat, sameName_comm]
    split_ifs with hname
    · rw [Option.some.injEq, eq_comm, or_iff_left fun h => h.2 hname]
    · refine ⟨fun h => ?_, fun h => .inr ⟨h, hname⟩⟩
      obtain rfl | ⟨h, -⟩ := h
      · exact absurd (.refl _) hname
      · exact h

/-- No name is lost or added, and the names stand in the order in which they first occur. -/
lemma names_lastOfEachName (ms : List Milestone) :
    (∀ name, name ∈ names (lastOfEachName ms) ↔ name ∈ names ms) ∧
      (names (lastOfEachName ms)).Pairwise fun a b => (names ms).idxOf a < (names ms).idxOf b := by
  induction ms using List.reverseRecOn with
  | nil => simp [lastOfEachName, names]
  | append_singleton ms last ih =>
    obtain ⟨hmem, hordered⟩ := ih
    have hnames : names (ms ++ [last]) = names ms ++ [foldName last.name] := List.map_append
    rw [lastOfEachName_concat, names_putInto, hnames]
    generalize names (lastOfEachName ms) = kept at hmem hordered ⊢
    -- names that have occurred are found where they were
    have hkept : kept.Pairwise fun a b => (names ms ++ [foldName last.name]).idxOf a <
        (names ms ++ [foldName last.name]).idxOf b := by
      refine hordered.imp_of_mem fun {a b} ha hb hlt => ?_
      rwa [List.idxOf_append, List.idxOf_append, if_pos ((hmem a).1 ha), if_pos ((hmem b).1 hb)]
    split_ifs with hlast
    · refine ⟨fun name => ?_, hkept⟩
      rw [hmem, List.mem_append, List.mem_singleton]
      refine (or_iff_left_of_imp ?_).symm
      rintro rfl
      exact (hmem _).1 hlast
    · refine ⟨fun name => by simp only [List.mem_append, hmem], List.pairwise_append.2
        ⟨hkept, List.pairwise_singleton _ _, fun a ha b hb => ?_⟩⟩
      obtain rfl := List.mem_singleton.1 hb
      have ha := (hmem a).1 ha
      rw [List.idxOf_append, List.idxOf_append, if_pos ha, if_neg (mt (hmem _).2 hlast)]
      exact Nat.lt_add_left _ (List.idxOf_lt_length_iff.2 ha)

lemma pairwise_lastOfEachName (ms : List Milestone) : (lastOfEachName ms).Pairwise fun a b =>
    firstPlace a.name ms < firstPlace b.name ms := by
  simp only [firstPlace_eq_idxOf]
  have hordered := (names_lastOfEachName ms).2
  generalize names ms = places at hordered ⊢
  rwa [names, List.pairwise_map] at hordered

/-! ## The sort -/

lemma perm_milestones (ms : List Milestone) : (ofList ms).milestones.Perm (lastOfEachName ms) :=
  List.mergeSort_perm _ _

/-- Entries of one time stand as they stood before the sort. -/
lemma filter_milestones (ms : List Milestone) (time : UInt64) :
    (ofList ms).milestones.filter (fun m => m.timestamp = time) =
      (lastOfEachName ms).filter fun m => m.timestamp = time := by
  have hsorted : ((lastOfEachName ms).filter fun m => m.timestamp = time).Pairwise
      fun a b => decide (a.timestamp ≤ b.timestamp) = true := by
    refine List.pairwise_of_forall_mem_list fun a ha b hb => ?_
    have ha : a.timestamp = time := by simpa using (List.mem_filter.1 ha).2
    have hb : b.timestamp = time := by simpa using (List.mem_filter.1 hb).2
    rw [ha, hb]
    exact decide_eq_true (UInt64.le_refl time)
  have hsublist : ((lastOfEachName ms).filter fun m => m.timestamp = time).Sublist
      (ofList ms).milestones :=
    List.sublist_mergeSort decide_timestamp_le_trans decide_timestamp_le_total hsorted
      List.filter_sublist
  have hfiltered := hsublist.filter fun m => m.timestamp = time
  rw [List.filter_filter] at hfiltered
  simp only [Bool.and_self] at hfiltered
  exact (hfiltered.eq_of_length ((perm_milestones ms).filter _).length_eq.symm).symm

/-! ## The schedule that a list describes -/

/-- The schedule has the last entry of each name in the list, by time, and those of one time in the
order in which their names first occur. -/
structure Arranges (s : Schedule) (ms : List Milestone) : Prop where
  /-- Times never fall. -/
  sorted : s.milestones.Pairwise fun a b => a.timestamp ≤ b.timestamp
  /-- No name is there twice, in whichever case of letters. -/
  namesDiffer : NamesDiffer s.milestones
  /-- A name finds its last entry. -/
  milestoneFor?_eq : ∀ name, s.milestoneFor? name = lastNamed? name ms
  /-- There is nothing but the last entries of names. -/
  mem_iff : ∀ m, m ∈ s.milestones ↔ ∃ name, lastNamed? name ms = some m
  /-- Where times are equal, the names decide. -/
  ties : s.milestones.Pairwise fun a b =>
    a.timestamp = b.timestamp → firstPlace a.name ms < firstPlace b.name ms

lemma mem_milestones_iff (ms : List Milestone) (m : Milestone) :
    m ∈ (ofList ms).milestones ↔ lastNamed? m.name ms = some m := by
  rw [(perm_milestones ms).mem_iff, mem_lastOfEachName_iff]

/-- A name finds the last entry that has it. -/
lemma milestoneFor?_ofList (name : String) (ms : List Milestone) :
    (ofList ms).milestoneFor? name = lastNamed? name ms := by
  refine Option.ext fun m => ?_
  rw [milestoneFor?, find?_eq_some_iff (namesDiffer_milestones_ofList ms), mem_milestones_iff]
  constructor
  · rintro ⟨hlast, hname⟩
    rw [← hlast, lastNamed?_congr hname]
  · intro hlast
    have hname := sameName_of_lastNamed? hlast
    exact ⟨(lastNamed?_congr hname ms).trans hlast, hname⟩

lemma arranges_ofList (ms : List Milestone) : (ofList ms).Arranges ms where
  sorted := (pairwise_milestones_ofList ms).imp of_decide_eq_true
  namesDiffer := namesDiffer_milestones_ofList ms
  milestoneFor?_eq name := milestoneFor?_ofList name ms
  mem_iff m := by
    rw [mem_milestones_iff]
    refine ⟨fun hlast => ⟨m.name, hlast⟩, fun ⟨name, hlast⟩ => ?_⟩
    rw [lastNamed?_congr (sameName_of_lastNamed? hlast), hlast]
  ties := by
    -- two entries of one time are found, in their order, among what is kept of that time
    refine List.pairwise_iff_forall_sublist.2 fun {a b} hsublist heq => ?_
    have hpair : [a, b].filter (fun m => m.timestamp = b.timestamp) = [a, b] := by simp [heq]
    have hfiltered := hsublist.filter fun m => m.timestamp = b.timestamp
    rw [hpair, filter_milestones] at hfiltered
    exact List.pairwise_iff_forall_sublist.1 (pairwise_lastOfEachName ms)
      (hfiltered.trans List.filter_sublist)

/-- No other schedule does. -/
lemma Arranges.unique (h : s.Arranges ms) (h' : s'.Arranges ms) : s = s' := by
  have hperm : s.milestones.Perm s'.milestones := by
    refine (List.perm_ext_iff_of_nodup h.namesDiffer.nodup h'.namesDiffer.nodup).2 fun m => ?_
    rw [h.mem_iff, h'.mem_iff]
  have hordered {s : Schedule} (h : s.Arranges ms) : s.milestones.Pairwise fun a b =>
      a.timestamp ≤ b.timestamp ∧
        (a.timestamp = b.timestamp → firstPlace a.name ms < firstPlace b.name ms) :=
    h.sorted.and h.ties
  have heq : s.milestones = s'.milestones := by
    refine hperm.eq_of_pairwise (fun a b _ _ hab hba => ?_) (hordered h) (hordered h')
    have htime := UInt64.le_antisymm hab.1 hba.1
    exact absurd (hab.2 htime) (Nat.lt_asymm (hba.2 htime.symm))
  cases s
  cases s'
  exact congrArg Schedule.mk heq

/-- A schedule has the last entry of each name, by time and then by where the names first occur.
Nothing else is such a schedule, and built of its own milestones it is the same one. -/
theorem ofList_arranges (ms : List Milestone) :
    (ofList ms).Arranges ms ∧ (∀ s : Schedule, s.Arranges ms → s = ofList ms) ∧
      ofList (ofList ms).milestones = ofList ms :=
  ⟨arranges_ofList ms, fun _ h => h.unique (arranges_ofList ms), ofList_milestones ms⟩

end Schedule

end ChainHead
