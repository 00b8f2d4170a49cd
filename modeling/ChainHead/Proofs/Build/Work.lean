import Mathlib.Data.List.Basic
import Mathlib.Logic.Relation
import Mathlib.Tactic.Common
import ChainHead.Build.Run

/-!
# Jobs at work

Between two calls to the coordinator its jobs work: they make their attempts, publish, rest and end,
and those who wait for a payload tell a job that it was asked for.  What one job can do in this time
is listed once (`Job.Step`), and so is what can happen to the coordinator (`Coordinator.Move`), of
which all that happens through time is made (`Coordinator.Moves`).  No job is added or lost in it,
none is given other terms, and nobody touches the job table (`Coordinator.Moves.works`).

What is known of the steps of one job so holds after any time (`Job.Evolves.terms_eq`,
`Job.Evolves.isSome_best`).
-/

namespace ChainHead

/-! ## One job -/

namespace Job

variable {timing : Timing} {script : List BuilderAnswer} {head : Option Hash} {j j' : Job}

/-- What the job was started with, and whether it is still wanted; its work changes neither. -/
def terms (j : Job) : Job :=
  { j with phase := .resting, iteration := 0, best := none, resolved := false }

/-- What may become of a job while it works under a head of the chain. -/
inductive Step (timing : Timing) (script : List BuilderAnswer) (head : Option Hash) (j : Job) :
    Job → Prop where
  /-- It makes an attempt. -/
  | attempt {answer : BuilderAnswer} (now : Nat) (hphase : j.phase = .resting)
      (hgoes : j.goesOn head = true) (hanswer : answer = .succeed ∨ answer ∈ script) :
      Step timing script head j (j.ask timing now answer).job
  /-- It ends instead of making one. -/
  | quit (hphase : j.phase = .resting) (hstays : j.goesOn head = false) :
      Step timing script head j j.quit.job
  /-- The answer to an attempt arrives. -/
  | answer {kind : BuilderAnswer.Kind} (now : Nat) (hphase : j.phase = .building kind) :
      Step timing script head j (j.answered timing now kind).job
  /-- Its payload is asked for. -/
  | resolve : Step timing script head j { j with resolved := true }

/-- What becomes of a job in any time. -/
abbrev Evolves (timing : Timing) (script : List BuilderAnswer) (head : Option Hash) :
    Job → Job → Prop :=
  Relation.ReflTransGen (Step timing script head)

@[simp] lemma quit_job (j : Job) : j.quit.job = { j with phase := .ended } := by
  unfold quit
  split_ifs <;> rfl

/-- A job that goes on rests or ends; its payload stays. -/
lemma rest_job (j : Job) (timing : Timing) (now : Nat) (notices : List Log.Notice) :
    ∃ phase, (j.rest timing now notices).job = { j with iteration := j.iteration + 1, phase } := by
  unfold rest
  dsimp only
  split_ifs
  · exact ⟨.ended, rfl⟩
  · exact ⟨.resting, rfl⟩

/-- An answer leads to another phase and may be published. -/
lemma answered_job (j : Job) (timing : Timing) (now : Nat) (kind : BuilderAnswer.Kind) :
    ∃ phase iteration best, (j.answered timing now kind).job = { j with phase, iteration, best } ∧
      (best = j.best ∨ ∃ p, j.order.emptyBlock = .ok p ∧ best = some p) := by
  cases kind with
  | success =>
    cases hbuilt : j.order.emptyBlock with
    | error failure =>
      simp only [answered, hbuilt]
      exact ⟨_, _, _, rfl, .inl rfl⟩
    | ok p =>
      obtain ⟨phase, hrest⟩ := (j.publish p).rest_job timing now []
      simp only [answered, hbuilt, hrest]
      exact ⟨_, _, _, rfl, .inr ⟨p, rfl, rfl⟩⟩
  | crash => exact ⟨_, _, _, rfl, .inl rfl⟩
  | failure =>
    unfold answered
    dsimp only
    split_ifs
    · exact ⟨_, _, _, rfl, .inl rfl⟩
    · obtain ⟨phase, hrest⟩ := j.rest_job timing now [.attemptFailed j.id]
      exact ⟨_, _, _, hrest, .inl rfl⟩

/-- Each step leads to another phase, may publish, and may note that the payload was asked for. -/
lemma Step.eq_with (h : Step timing script head j j') :
    ∃ phase iteration best resolved, j' = { j with phase, iteration, best, resolved } ∧
      (best = j.best ∨ ∃ p, j.order.emptyBlock = .ok p ∧ best = some p) := by
  cases h with
  | @attempt answer now _ _ _ =>
    unfold ask
    split_ifs
    · obtain ⟨phase, iteration, best, hjob, hbest⟩ := j.answered_job timing now answer.kind
      exact ⟨phase, iteration, best, _, hjob, hbest⟩
    · exact ⟨_, _, _, _, rfl, .inl rfl⟩
  | quit _ _ => exact ⟨_, _, _, _, j.quit_job, .inl rfl⟩
  | @answer kind now _ =>
    obtain ⟨phase, iteration, best, hjob, hbest⟩ := j.answered_job timing now kind
    exact ⟨phase, iteration, best, _, hjob, hbest⟩
  | resolve => exact ⟨_, _, _, _, rfl, .inl rfl⟩

lemma Step.terms_eq (h : Step timing script head j j') : j'.terms = j.terms := by
  obtain ⟨phase, iteration, best, resolved, rfl, -⟩ := h.eq_with
  rfl

/-- A payload is only ever replaced by another one. -/
lemma Step.isSome_best (h : Step timing script head j j') (hbest : j.best.isSome = true) :
    j'.best.isSome = true := by
  obtain ⟨phase, iteration, best, resolved, rfl, rfl | ⟨p, -, rfl⟩⟩ := h.eq_with
  · exact hbest
  · rfl

theorem Evolves.terms_eq (h : Evolves timing script head j j') : j'.terms = j.terms := by
  induction h with
  | refl => rfl
  | tail _ hstep ih => rw [hstep.terms_eq, ih]

theorem Evolves.isSome_best (h : Evolves timing script head j j')
    (hbest : j.best.isSome = true) : j'.best.isSome = true := by
  induction h with
  | refl => exact hbest
  | tail _ hstep ih => exact hstep.isSome_best ih

lemma id_eq_of_terms (h : j'.terms = j.terms) : j'.id = j.id := by
  have hproj : j'.terms.id = j.terms.id := by rw [h]
  exact hproj

lemma parent_eq_of_terms (h : j'.terms = j.terms) : j'.parent = j.parent := by
  have hproj : j'.terms.parent = j.terms.parent := by rw [h]
  exact hproj

lemma cancelled_eq_of_terms (h : j'.terms = j.terms) : j'.cancelled = j.cancelled := by
  have hproj : j'.terms.cancelled = j.terms.cancelled := by rw [h]
  exact hproj

end Job

/-! ## All jobs -/

namespace Coordinator

variable {c c' c'' : Coordinator} {head : Option Hash} {k : Nat} {j : Job}

/-- The one coordinator comes of the other while jobs work. -/
structure Works (head : Option Hash) (c c' : Coordinator) : Prop where
  table : c'.table = c.table
  poisoned : c'.poisoned = c.poisoned
  timing : c'.timing = c.timing
  script : c'.script = c.script
  length : c'.jobs.length = c.jobs.length
  evolves : ∀ (k : Nat) (j : Job), c.jobs[k]? = some j →
    ∃ j' : Job, c'.jobs[k]? = some j' ∧ Job.Evolves c.timing c.script head j j'

namespace Works

/-- Whatever else the coordinator holds is of no account. -/
lemma of_eq (htable : c'.table = c.table) (hpoisoned : c'.poisoned = c.poisoned)
    (htiming : c'.timing = c.timing) (hscript : c'.script = c.script)
    (hjobs : c'.jobs = c.jobs) : Works head c c' :=
  ⟨htable, hpoisoned, htiming, hscript, by rw [hjobs], fun k j hj => ⟨j, by rw [hjobs, hj], .refl⟩⟩

lemma refl (c : Coordinator) : Works head c c := .of_eq rfl rfl rfl rfl rfl

lemma trans (h : Works head c c') (h' : Works head c' c'') : Works head c c'' where
  table := h'.table.trans h.table
  poisoned := h'.poisoned.trans h.poisoned
  timing := h'.timing.trans h.timing
  script := h'.script.trans h.script
  length := h'.length.trans h.length
  evolves k j hj := by
    obtain ⟨j', hj', hevolves⟩ := h.evolves k j hj
    obtain ⟨j'', hj'', hevolves'⟩ := h'.evolves k j' hj'
    rw [h.timing, h.script] at hevolves'
    exact ⟨j'', hj'', hevolves.trans hevolves'⟩

lemma modifyJob {f : Job → Job} (c : Coordinator) (k : Nat)
    (hf : ∀ j, c.jobs[k]? = some j → j.Step c.timing c.script head (f j)) :
    Works head c (c.modifyJob k f) := by
  refine ⟨rfl, rfl, rfl, rfl, List.length_modify _ _ _, fun i j hj => ?_⟩
  show ∃ j', (c.jobs.modify k f)[i]? = some j' ∧ _
  rw [List.getElem?_modify, hj]
  by_cases hk : k = i
  · subst hk
    exact ⟨f j, by simp, .single (hf j hj)⟩
  · exact ⟨j, by simp [hk], .refl⟩

end Works

/-! ## Turns -/

/-- What a turn of a job does to the coordinator. -/
inductive TurnEnds (c : Coordinator) (head : Option Hash) (k : Nat) : Coordinator → Prop where
  /-- There is no such job, or it is at its end. -/
  | idle (hidle : ∀ j, c.jobs[k]? = some j → j.phase = .ended ∨ j.phase = .crashed) :
      TurnEnds c head k c
  /-- The job makes an attempt. -/
  | attempt {j : Job} (hj : c.jobs[k]? = some j) (hphase : j.phase = .resting)
      (hgoes : j.goesOn head = true) :
      TurnEnds c head k ((c.note j).conclude k (j.ask c.timing c.now c.nextAnswer))
  /-- The job ends. -/
  | quit {j : Job} (hj : c.jobs[k]? = some j) (hphase : j.phase = .resting)
      (hstays : j.goesOn head = false) : TurnEnds c head k (c.conclude k j.quit)
  /-- The job takes an answer. -/
  | answer {j : Job} {kind : BuilderAnswer.Kind} (hj : c.jobs[k]? = some j)
      (hphase : j.phase = .building kind) :
      TurnEnds c head k (c.conclude k (j.answered c.timing c.now kind))

theorem turn_ends (c : Coordinator) (head : Option Hash) (k : Nat) :
    c.TurnEnds head k (c.turn head k) := by
  unfold turn
  cases hj : c.jobs[k]? with
  | none => exact .idle (by simp [hj])
  | some j =>
    dsimp only
    cases hphase : j.phase with
    | resting =>
      dsimp only
      split_ifs with hgoes
      · exact .attempt hj hphase hgoes
      · exact .quit hj hphase (by simpa using hgoes)
    | building kind => exact .answer hj hphase
    | ended => exact .idle (by simp [hj, hphase])
    | crashed => exact .idle (by simp [hj, hphase])

/-- The next answer is success or one that is written in the script. -/
lemma nextAnswer_mem (c : Coordinator) : c.nextAnswer = .succeed ∨ c.nextAnswer ∈ c.script := by
  unfold nextAnswer
  cases hnext : c.script[c.attempts.size]? with
  | none => exact .inl rfl
  | some answer => exact .inr (List.mem_of_getElem? hnext)

lemma conclude_eq_with (c : Coordinator) (k : Nat) (turn : Job.Turn) :
    ∃ journal gauge, c.conclude k turn = { c with
      jobs := c.jobs.set k turn.job
      wakeups := c.wakeups ++ turn.wake.toList.map (Wakeup.mk k)
      journal
      gauge } := by
  unfold conclude
  dsimp only
  split_ifs
  · exact ⟨_, _, rfl⟩
  · exact ⟨_, c.gauge, rfl⟩

/-- A look of a request does no more than to tell the job that has the id now. -/
lemma serve_cases (c : Coordinator) (f : Fetch) :
    (c.serve f).2 = c ∨ ∃ id k, c.lookup? id = some k ∧ (c.serve f).2 = c.resolve k := by
  cases f with
  | answered payload => exact .inl rfl
  | watching job => exact .inl rfl
  | asked id =>
    unfold serve
    dsimp only
    split
    next => exact .inl rfl
    next k hid => exact .inr ⟨id, k, hid, rfl⟩

namespace Works

lemma conclude {turn : Job.Turn} (hj : c.jobs[k]? = some j)
    (hturn : j.Step c.timing c.script head turn.job) : Works head c (c.conclude k turn) := by
  obtain ⟨journal, gauge, hconclude⟩ := c.conclude_eq_with k turn
  rw [hconclude]
  refine ⟨rfl, rfl, rfl, rfl, List.length_set, fun i j' hj' => ?_⟩
  rw [List.getElem?_set]
  have hlt : i < c.jobs.length := (List.getElem?_eq_some_iff.1 hj').1
  by_cases hk : k = i
  · subst hk
    cases hj.symm.trans hj'
    exact ⟨turn.job, by simp [hlt], .single hturn⟩
  · exact ⟨j', by simp [hk, hj'], .refl⟩

lemma turn (c : Coordinator) (head : Option Hash) (k : Nat) : Works head c (c.turn head k) := by
  have hends := c.turn_ends head k
  generalize c.turn head k = c' at hends
  cases hends with
  | idle _ => exact .refl c
  | @attempt j hj hphase hgoes =>
    have hnoted : Works head c (c.note j) := .of_eq rfl rfl rfl rfl rfl
    exact hnoted.trans (.conclude hj (.attempt c.now hphase hgoes c.nextAnswer_mem))
  | quit hj hphase hstays => exact .conclude hj (.quit hphase hstays)
  | answer hj hphase => exact .conclude hj (.answer c.now hphase)

lemma resolve (c : Coordinator) (k : Nat) : Works head c (c.resolve k) :=
  .modifyJob c k fun _ _ => .resolve

end Works

/-! ## Through time -/

/-- What happens to the coordinator at once while jobs work. -/
inductive Move (head : Option Hash) (c : Coordinator) : Coordinator → Prop where
  /-- A job has a turn. -/
  | turn (k : Nat) : Move head c (c.turn head k)
  /-- The payload of a job is asked for. -/
  | resolve (k : Nat) : Move head c (c.resolve k)
  /-- Time passes, wake-ups are taken, or those who wait are told. -/
  | idle (now : Nat) (wakeups : List Wakeup) (fetches : List Fetch) :
      Move head c { c with now, wakeups, fetches }

lemma Move.works (h : Move head c c') : Works head c c' := by
  cases h with
  | turn k => exact .turn c head k
  | resolve k => exact .resolve c k
  | idle now wakeups fetches => exact .of_eq rfl rfl rfl rfl rfl

/-- Jobs have their turns, and those who wait look for their payloads. -/
abbrev Moves (head : Option Hash) : Coordinator → Coordinator → Prop :=
  Relation.ReflTransGen (Move head)

theorem Moves.works (h : Moves head c c') : Works head c c' := by
  induction h with
  | refl => exact .refl c
  | tail _ hmove ih => exact ih.trans hmove.works

namespace Moves

lemma foldl_turn (head : Option Hash) (ks : List Nat) (c : Coordinator) :
    Moves head c (ks.foldl (fun c k => c.turn head k) c) :=
  ks.foldlRecOn _ .refl fun _ hc k _ => hc.tail (.turn k)

lemma runDue (c : Coordinator) (head : Option Hash) : Moves head c (c.runDue head) :=
  .trans (.single (.idle _ _ _)) (foldl_turn head _ _)

/-! ### Those who wait -/

lemma serve (c : Coordinator) (f : Fetch) : Moves head c (c.serve f).2 := by
  obtain hsame | ⟨id, k, -, hresolve⟩ := c.serve_cases f
  · rw [hsame]
  · rw [hresolve]
    exact .single (.resolve k)

lemma serveAll (c : Coordinator) (fetches : List Fetch) : Moves head c (c.serveAll fetches).2 := by
  induction fetches generalizing c with
  | nil => exact .refl
  | cons f rest ih =>
    rw [Coordinator.serveAll]
    exact (serve c f).trans (ih _)

lemma settle (c : Coordinator) (head : Option Hash) : Moves head c (c.settle head) :=
  ((runDue c head).trans (serveAll _ _)).tail (.idle _ _ _)

/-- Where a turn of a job brings what stays while jobs work, it is there once everything is done
that is due, if the job is. -/
lemma settle_of_due {P Q : Coordinator → Prop} (hP : ∀ c c', Works head c c' → P c → P c')
    (hturn : ∀ c, P c → Q (c.turn head k)) (hQ : ∀ c c', Works head c c' → Q c → Q c')
    (hdue : k ∈ c.due) (h : P c) : Q (c.settle head) := by
  -- other jobs may have their turns before and after it
  obtain ⟨before, after, hsplit⟩ := List.append_of_mem hdue
  have hbefore : Moves head c (before.foldl (fun c k => c.turn head k)
      { c with wakeups := c.wakeups.filter fun w => c.now < w.time }) :=
    .trans (.single (.idle _ _ _)) (foldl_turn head before _)
  have hrun : Q (c.runDue head) := by
    rw [Coordinator.runDue, hsplit, List.foldl_append, List.foldl_cons]
    exact hQ _ _ (foldl_turn head after _).works (hturn _ (hP _ _ hbefore.works h))
  have hserve : Moves head (c.runDue head) (c.settle head) := (serveAll _ _).tail (.idle _ _ _)
  exact hQ _ _ hserve.works hrun

/-! ### From wake-up to wake-up -/

lemma runFor (head : Option Hash) (limit fuel : Nat) (c : Coordinator) :
    Moves head c (runFor head limit fuel c) := by
  induction fuel generalizing c with
  | zero => exact .single (.idle _ _ _)
  | succ fuel ih =>
    cases hnext : c.nextTime? with
    | none =>
      simp only [Coordinator.runFor, hnext]
      exact .single (.idle _ _ _)
    | some time =>
      have hwoken : Moves head c { c with now := max c.now time } := .single (.idle _ _ _)
      simp only [Coordinator.runFor, hnext]
      split_ifs
      · exact .single (.idle _ _ _)
      · exact (hwoken.trans (settle _ head)).trans (ih _)

lemma runUntil (c : Coordinator) (head : Option Hash) (limit : Nat) :
    Moves head c (c.runUntil head limit) :=
  runFor head limit _ c

lemma runTurnOf (c : Coordinator) (head : Option Hash) (k : Nat) :
    Moves head c (c.runTurnOf head k) := by
  unfold Coordinator.runTurnOf
  split
  · exact runUntil c head _
  · exact .refl

lemma await (c : Coordinator) (head : Option Hash) (k : Nat) :
    Moves head c (c.await head k).2 := by
  -- each of the two rounds is skipped once there is a payload
  have hround (c : Coordinator) :
      Moves head c (if (c.best? k).isSome then c else c.runTurnOf head k) := by
    split_ifs
    · exact .refl
    · exact runTurnOf c head k
  unfold Coordinator.await
  split_ifs
  · exact .refl
  · exact ((settle c head).trans (hround _)).trans (hround _)

lemma retrieve (c : Coordinator) (head : Option Hash) (id : PayloadId) :
    Moves head c (c.retrieve head id).2 := by
  unfold Coordinator.retrieve
  split
  · exact .refl
  · exact .head (.resolve _) (await _ head _)

lemma join (c : Coordinator) (head : Option Hash) (fetch : Nat) :
    Moves head c (c.join head fetch).2 := by
  have hsettled := settle c head
  unfold Coordinator.join
  dsimp only
  split
  · exact hsettled
  · exact hsettled.trans (await _ head _)
  · exact hsettled

end Moves

end Coordinator

end ChainHead
