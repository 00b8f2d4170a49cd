import ChainHead.Proofs.Schedule.Entries
import ChainHead.Settings.Config

/-!
# Overrides are entries put behind the others

A schedule with overrides holds the same milestones as the one that is built of all entries at
once, and answers as that one does, although the first sorts the entries before it puts the
overrides among them (`Schedule.SameEntries`).  Only milestones of one time may stand in another
order.

What a name finds depends on the last entry of the name alone, and to build a schedule changes no
last entry (`Schedule.lastNamed?_milestones`).  So the fork schedule of a configuration has for each
name the last configured entry, or else that of the network (`Schedule.withOverrides_appends`).
-/

namespace ChainHead

namespace Schedule

open Milestone
open ChainHead.Settings (Config)

variable {s s' : Schedule} {ms ms' : List Milestone}

/-- The schedules hold the same milestones, up to the order of those of one time, and so give the
same answers. -/
structure SameEntries (s s' : Schedule) : Prop where
  /-- One is the other in another order. -/
  perm : s.milestones.Perm s'.milestones
  /-- In the order of their times that can only be another order of milestones of one time. -/
  timestamps : s.milestones.map Milestone.timestamp = s'.milestones.map Milestone.timestamp
  /-- A name finds the same milestone. -/
  milestoneFor? : ∀ name, s.milestoneFor? name = s'.milestoneFor? name
  /-- The same forks are active. -/
  isActive : ∀ name time, s.isActive name time = s'.isActive name time
  /-- The latest one is from the same time. -/
  activeAt? : ∀ time,
    (s.activeAt? time).map Milestone.timestamp = (s'.activeAt? time).map Milestone.timestamp

/-- The times are enough to tell from when the latest active milestone is. -/
lemma map_timestamp_activeAt? (s : Schedule) (time : UInt64) :
    (s.activeAt? time).map Milestone.timestamp =
      ((s.milestones.map Milestone.timestamp).takeWhile (· ≤ time)).getLast? := by
  rw [Schedule.activeAt?, List.takeWhile_map, List.getLast?_map]
  rfl

/-- Lists with the same last entries make the same milestones. -/
lemma sameEntries_ofList (h : ∀ name, lastNamed? name ms = lastNamed? name ms') :
    (ofList ms).SameEntries (ofList ms') := by
  have hnodup (ms : List Milestone) : (ofList ms).milestones.Nodup :=
    (namesDiffer_milestones_ofList ms).nodup
  have hperm : (ofList ms).milestones.Perm (ofList ms').milestones := by
    refine (List.perm_ext_iff_of_nodup (hnodup ms) (hnodup ms')).2 fun m => ?_
    rw [mem_milestones_iff, mem_milestones_iff, h]
  have hsorted (ms : List Milestone) :
      ((ofList ms).milestones.map Milestone.timestamp).Pairwise (· ≤ ·) :=
    List.pairwise_map.2 (arranges_ofList ms).sorted
  have htimes := (hperm.map Milestone.timestamp).eq_of_pairwise
    (fun _ _ _ _ => UInt64.le_antisymm) (hsorted ms) (hsorted ms')
  have hfor (name : String) : (ofList ms).milestoneFor? name = (ofList ms').milestoneFor? name := by
    rw [milestoneFor?_ofList, milestoneFor?_ofList, h]
  exact ⟨hperm, htimes, hfor, fun name time => by rw [isActive, isActive, hfor],
    fun time => by rw [map_timestamp_activeAt?, map_timestamp_activeAt?, htimes]⟩

/-- To build a schedule changes no last entry. -/
lemma lastNamed?_milestones (name : String) (ms : List Milestone) :
    lastNamed? name (ofList ms).milestones = lastNamed? name ms := by
  rw [← milestoneFor?_ofList, ofList_milestones, milestoneFor?_ofList]

lemma lastNamed?_milestones_append (name : String) (ms ms' : List Milestone) :
    lastNamed? name ((ofList ms).milestones ++ ms') = lastNamed? name (ms ++ ms') := by
  rw [lastNamed?_append, lastNamed?_milestones, lastNamed?_append]

/-- An override of a name comes before what the schedule has for it. -/
lemma milestoneFor?_withOverrides (name : String) (ms ms' : List Milestone) :
    ((ofList ms).withOverrides ms').milestoneFor? name =
      (lastNamed? name ms').or ((ofList ms).milestoneFor? name) := by
  rw [withOverrides, milestoneFor?_ofList, lastNamed?_milestones_append, lastNamed?_append,
    milestoneFor?_ofList]

/-- A schedule with overrides holds what the schedule of all entries holds.  So on a known network
each name finds its last configured entry, or that of the network if none is configured. -/
theorem withOverrides_appends :
    (∀ ms ms' : List Milestone,
      ((ofList ms).withOverrides ms').SameEntries (ofList (ms ++ ms'))) ∧
    ∀ (c : Config) (preset : Schedule), ofNetwork? c.network = some preset →
      ∃ s, c.schedule = .ok s ∧ ∀ name, s.milestoneFor? name =
        (lastNamed? name c.hardforks).or (preset.milestoneFor? name) := by
  refine ⟨fun ms ms' => sameEntries_ofList fun name => lastNamed?_milestones_append name ms ms',
    fun c preset hpreset => ?_⟩
  obtain ⟨ms, rfl⟩ := (Built.ofNetwork hpreset).exists_ofList
  exact ⟨(ofList ms).withOverrides c.hardforks, by rw [Config.schedule, hpreset],
    fun name => milestoneFor?_withOverrides name ms c.hardforks⟩

/-- A configuration for a test network that sets one of its forks twice and one that it has not. -/
def overriding : Config where
  network := "SEPOLIA"
  hardforks := [⟨"cancun", 5⟩, ⟨"Osaka", 7⟩, ⟨"CANCUN", 9⟩]
  rpcAddr := "127.0.0.1"
  rpcPort := 8551
  dataDir := "data"
  metricsPort := none
  logDir := none
  builder := {}
  genesis := none

theorem withOverrides_appends_overriding :
    ofNetwork? overriding.network = some sepolia ∧ ∃ s, overriding.schedule = .ok s ∧
      s.milestoneFor? "Cancun" = some ⟨"CANCUN", 9⟩ ∧ s.milestoneFor? "osaka" = some ⟨"Osaka", 7⟩ ∧
      s.milestoneFor? "prague" = some ⟨"Prague", 1741159776⟩ ∧ s.milestoneFor? "Paris" = none := by
  have hnetwork : ofNetwork? overriding.network = some sepolia := by
    rw [ofNetwork?, if_neg (by decide +kernel), if_pos (by decide +kernel)]
  obtain ⟨s, hs, hname⟩ := withOverrides_appends.2 overriding sepolia hnetwork
  refine ⟨hnetwork, s, hs, ?_⟩
  simp only [hname, sepolia, milestoneFor?_ofList]
  decide +kernel

end Schedule

end ChainHead
