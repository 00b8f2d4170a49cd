import Mathlib.Tactic.Common
import ChainHead.Build.Run

/-!
# What callers do to a job

Whoever calls the coordinator may start other jobs and take jobs off the table.  All that this does
to one job is to set its flags (`Coordinator.Marks`): its id, its parent and its attributes stay,
and so does what it has done so far.
-/

namespace ChainHead

namespace Coordinator

variable {c c' c'' : Coordinator} {k : Nat} {id : PayloadId}

/-- The one coordinator comes of the other by calls, and all that these do to a job is to set its
flags. -/
structure Marks (k : Nat) (c c' : Coordinator) : Prop where
  timing : c'.timing = c.timing
  script : c'.script = c.script
  job : ∀ j, c.jobs[k]? = some j → ∃ cancelled resolved,
    c'.jobs[k]? = some { j with cancelled, resolved } ∧
      (j.cancelled = true → cancelled = true) ∧ (j.resolved = true → resolved = true)

namespace Marks

lemma of_eq (htiming : c'.timing = c.timing) (hscript : c'.script = c.script)
    (hjobs : c'.jobs = c.jobs) : Marks k c c' :=
  ⟨htiming, hscript,
    fun j hj => ⟨j.cancelled, j.resolved, by rw [hjobs, hj], fun h => h, fun h => h⟩⟩

lemma trans (h : Marks k c c') (h' : Marks k c' c'') : Marks k c c'' where
  timing := h'.timing.trans h.timing
  script := h'.script.trans h.script
  job j hj := by
    obtain ⟨_, _, hj', hcancelled, hresolved⟩ := h.job j hj
    obtain ⟨_, _, hj'', hcancelled', hresolved'⟩ := h'.job _ hj'
    exact ⟨_, _, hj'', fun h => hcancelled' (hcancelled h), fun h => hresolved' (hresolved h)⟩

/-- Flags of some job are set. -/
lemma modifyJob (c : Coordinator) (other : Nat) {f : Job → Job}
    (hf : ∀ j, ∃ cancelled resolved, f j = { j with cancelled, resolved } ∧
      (j.cancelled = true → cancelled = true) ∧ (j.resolved = true → resolved = true)) :
    Marks k c (c.modifyJob other f) := by
  refine ⟨rfl, rfl, fun j hj => ?_⟩
  show ∃ cancelled resolved, (c.jobs.modify other f)[k]? = _ ∧ _
  rw [List.getElem?_modify, hj]
  by_cases hother : other = k
  · obtain ⟨cancelled, resolved, hjob, hset⟩ := hf j
    exact ⟨cancelled, resolved, by simp [hother, hjob], hset⟩
  · exact ⟨j.cancelled, j.resolved, by simp [hother], fun h => h, fun h => h⟩

lemma resolve (c : Coordinator) (other : Nat) : Marks k c (c.resolve other) :=
  .modifyJob c other fun j => ⟨j.cancelled, true, rfl, fun h => h, fun _ => rfl⟩

lemma remove (c : Coordinator) (id : PayloadId) : Marks k c (c.remove id) := by
  unfold Coordinator.remove
  split
  · exact .of_eq rfl rfl rfl
  · rename_i entry _
    have hmarked : Marks k c (c.modifyJob entry.job fun j => { j with cancelled := true }) :=
      .modifyJob c _ fun j => ⟨true, j.resolved, rfl, fun _ => rfl, fun h => h⟩
    exact hmarked.trans (.of_eq rfl rfl rfl)

lemma foldl_remove (c : Coordinator) (ids : List PayloadId) :
    Marks k c (ids.foldl Coordinator.remove c) :=
  ids.foldlRecOn _ (.of_eq rfl rfl rfl) fun _ hc id _ => hc.trans (.remove _ id)

lemma makeRoom (c : Coordinator) (parent : Hash) : Marks k c (c.makeRoom parent).2 :=
  (foldl_remove c _).trans (.foldl_remove _ _)

lemma cancel (c : Coordinator) (id : PayloadId) : Marks k c (c.cancel id).2 := by
  unfold Coordinator.cancel
  split
  · exact .remove c id
  · exact .of_eq rfl rfl rfl

lemma place (c : Coordinator) (id : PayloadId) (parent : Block) (a : PayloadAttributes) :
    Marks k c (c.place id parent a) := by
  refine ⟨rfl, rfl, fun j hj => ⟨j.cancelled, j.resolved, ?_, fun h => h, fun h => h⟩⟩
  show (c.jobs ++ [_])[k]? = _
  rw [List.getElem?_append_left (List.getElem?_eq_some_iff.1 hj).1, hj]

lemma startAs (c : Coordinator) (id : PayloadId) (parent : Block) (a : PayloadAttributes) :
    Marks k c (c.startAs id parent a).after := by
  unfold Coordinator.startAs
  dsimp only
  split_ifs
  · exact .of_eq rfl rfl rfl
  · exact (makeRoom c parent.hash).trans (.place _ id parent a)

lemma start (c : Coordinator) (parent : Block) (a : PayloadAttributes) :
    Marks k c (c.start parent a).after :=
  (startAs c _ parent a).trans (.of_eq rfl rfl rfl)

lemma startNowhere (c : Coordinator) (parent : Block) :
    Marks k c (c.startNowhere parent).2.2 := by
  unfold Coordinator.startNowhere
  split_ifs
  · exact .of_eq rfl rfl rfl
  · exact (makeRoom c parent.hash).trans (.of_eq rfl rfl rfl)

end Marks

end Coordinator

end ChainHead
