import ChainHead.Build.Workshop
import ChainHead.Proofs.Build.Loop

/-!
# Where a payload comes from

What the builder was asked for and what it answered is kept on the bench of each job, and what the
job publishes is told by it: its orders are those of its commission, numbered from zero, and its
payloads are what the builder made of them, each with the number of its order (`Bench.Keeps`).
Every step of the loop and every answer of the builder keeps this up (`Bench.Keeps.work`,
`Bench.Keeps.answer`).

So the last payload that was published comes from an order of the commission, and the number it
bears is that of the calls of the builder before (`Bench.Keeps.vouches`).
-/

namespace ChainHead

/-! ## What the builder made -/

namespace Job.Outcome

variable {outcomes : List Job.Outcome} {p : BuiltPayload}

/-- The payload that a call ended with, under the number of the call. -/
def payload? : Job.Outcome × Nat → Option BuiltPayload
  | (.built p, i) => some { p with iteration := i }
  | (.failed, _) => none
  | (.crashed, _) => none

/-- The payloads that calls ended with. -/
def payloads (outcomes : List Job.Outcome) : List BuiltPayload :=
  outcomes.zipIdx.filterMap payload?

lemma payloads_append (outcomes : List Job.Outcome) (outcome : Job.Outcome) :
    payloads (outcomes ++ [outcome]) =
      payloads outcomes ++ (payload? (outcome, outcomes.length)).toList := by
  rw [payloads, List.zipIdx_append, List.filterMap_append, Nat.zero_add]
  cases outcome <;> rfl

lemma mem_payloads (h : p ∈ payloads outcomes) :
    ∃ q, outcomes[p.iteration]? = some (.built q) ∧ p = { q with iteration := p.iteration } := by
  obtain ⟨⟨outcome, i⟩, hmem, hp⟩ := List.mem_filterMap.1 h
  have hget := List.mem_zipIdx_iff_getElem?.1 hmem
  cases outcome with
  | built q =>
    cases hp
    exact ⟨q, hget, rfl⟩
  | failed => cases hp
  | crashed => cases hp

lemma iteration_of_payload? {entry : Job.Outcome × Nat} (h : payload? entry = some p) :
    p.iteration = entry.2 := by
  obtain ⟨outcome, i⟩ := entry
  cases outcome <;> cases h
  rfl

/-- A later payload is that of a later call. -/
lemma pairwise_payloads (outcomes : List Job.Outcome) :
    (payloads outcomes).Pairwise (·.iteration < ·.iteration) := by
  have hnumbers : outcomes.zipIdx.Pairwise (·.2 < ·.2) := by
    refine List.pairwise_map.1 ?_
    rw [List.zipIdx_map_snd]
    exact List.pairwise_lt_range' 1
  refine hnumbers.filterMap payload? fun entry entry' hlt p hp p' hp' => ?_
  rw [iteration_of_payload? hp, iteration_of_payload? hp']
  exact hlt

end Job.Outcome

/-! ## One bench -/

namespace Bench

variable {b : Bench} {o : Commission} {j : Job} {point : Job.Point}

/-- The payload that the loop is about to publish. -/
def inHand (b : Bench) : Option BuiltPayload :=
  match b.point with
  | .atPublish p => some p
  | _ => none

/-- Before a call there are as many orders and answers as rounds; while it lasts there is one order
more, and behind it also one answer more.  At the end every order is answered. -/
def InStep (b : Bench) (rounds : Nat) : Prop :=
  match b.point with
  | .atStart | .atCancelled | .atResolved | .atBest | .atHead | .atCall | .asleep _ =>
    b.orders.length = rounds ∧ b.outcomes.length = rounds
  | .inCall => b.orders.length = rounds + 1 ∧ b.outcomes.length = rounds
  | .atPublish _ | .atFailed | .atFailedBest | .atClock =>
    b.orders.length = rounds + 1 ∧ b.outcomes.length = rounds + 1
  | .ended | .crashed => b.orders.length = b.outcomes.length

/-- The job fulfils its commission, and what it has published is what the builder made of its
orders. -/
structure Keeps (b : Bench) (o : Commission) (j : Job) : Prop where
  id_eq : j.id = o.id
  parent_eq : j.parent = o.parent
  attributes_eq : j.attributes = o.attributes
  phase_eq : j.phase = b.point.phase
  best_eq : j.best = b.published.getLast?
  orders_eq : b.orders = (List.range b.orders.length).map (BuildOrder.mk o.parent o.attributes)
  published_eq : b.published ++ b.inHand.toList = Job.Outcome.payloads b.outcomes
  inStep : b.InStep j.iteration

/-- The bench is kept if an event led to this loop. -/
def KeptBy (b : Bench) (o : Commission) (j : Job) (event : Job.Loop.Event) (l : Job.Loop) : Prop :=
  (b.note j event l.point).Keeps o { l.job with phase := l.point.phase }

namespace Keeps

/-- A new job has an empty bench. -/
lemma empty {o : Commission} (hid : j.id = o.id) (hparent : j.parent = o.parent)
    (hattributes : j.attributes = o.attributes) (hphase : j.phase = .resting)
    (hbest : j.best = none) (hiteration : j.iteration = 0) : Keeps {} o j :=
  ⟨hid, hparent, hattributes, hphase, hbest, rfl, rfl, hiteration.symm, hiteration.symm⟩

/-- Flags do not matter. -/
lemma flags (h : b.Keeps o j) (cancelled resolved : Bool) :
    b.Keeps o { j with cancelled, resolved } :=
  ⟨h.id_eq, h.parent_eq, h.attributes_eq, h.phase_eq, h.best_eq, h.orders_eq, h.published_eq,
    h.inStep⟩

/-- Nor does the deadline. -/
lemma setDeadline (h : b.Keeps o j) (deadline : Nat) : b.Keeps o { j with deadline } :=
  ⟨h.id_eq, h.parent_eq, h.attributes_eq, h.phase_eq, h.best_eq, h.orders_eq, h.published_eq,
    h.inStep⟩

/-- The loop goes on with nothing in its hands. -/
lemma goTo (h : b.Keeps o j) (point : Job.Point) (hhand : b.inHand = none)
    (hhand' : { b with point }.inHand = none) (hsteps : { b with point }.InStep j.iteration) :
    { b with point }.Keeps o { j with phase := point.phase } := by
  have hpublished := h.published_eq
  rw [hhand] at hpublished
  refine ⟨h.id_eq, h.parent_eq, h.attributes_eq, rfl, h.best_eq, h.orders_eq, ?_, hsteps⟩
  rw [hhand']
  exact hpublished

/-- The loop stays where it is. -/
lemma stay (h : b.Keeps o j) : b.Keeps o { j with phase := b.point.phase } :=
  ⟨h.id_eq, h.parent_eq, h.attributes_eq, rfl, h.best_eq, h.orders_eq, h.published_eq, h.inStep⟩

/-- A round is over. -/
lemma countRound (h : b.Keeps o j) (point : Job.Point) (hpoint : b.point = .atClock)
    (hhand : { b with point }.inHand = none) (hsteps : { b with point }.InStep (j.iteration + 1)) :
    { b with point }.Keeps o { j with iteration := j.iteration + 1, phase := point.phase } := by
  have hnone : b.inHand = none := by rw [inHand, hpoint]
  have hpublished := h.published_eq
  rw [hnone] at hpublished
  refine ⟨h.id_eq, h.parent_eq, h.attributes_eq, rfl, h.best_eq, h.orders_eq, ?_, hsteps⟩
  rw [hhand]
  exact hpublished

/-- The next order has the next number. -/
lemma call (h : b.Keeps o j) (hpoint : b.point = .atCall) :
    { b with point := .inCall, orders := b.orders ++ [j.order] }.Keeps o
      { j with phase := .resting } := by
  obtain ⟨point, orders, outcomes, published⟩ := b
  obtain ⟨hid, hparent, hattributes, -, hbest, horders, hpublished, hsteps⟩ := h
  cases hpoint
  obtain ⟨hlength, hlength'⟩ : orders.length = j.iteration ∧ outcomes.length = j.iteration := hsteps
  refine ⟨hid, hparent, hattributes, rfl, hbest, ?_, hpublished, ?_, hlength'⟩
  · have horders : orders = (List.range orders.length).map (BuildOrder.mk o.parent o.attributes) :=
      horders
    show orders ++ [j.order] = _
    rw [List.length_append, List.length_singleton, List.range_succ, List.map_append, ← horders,
      List.map_singleton, Job.order, hparent, hattributes, hlength]
  · show (orders ++ [_]).length = _
    rw [List.length_append, List.length_singleton, hlength]

/-- The payload in hand becomes the last one that is published. -/
lemma publish (h : b.Keeps o j) {p : BuiltPayload} (hpoint : b.point = .atPublish p) :
    { b with point := .atClock, published := b.published ++ [p] }.Keeps o
      { j.publish p with phase := .resting } := by
  obtain ⟨point, orders, outcomes, published⟩ := b
  obtain ⟨hid, hparent, hattributes, -, hbest, horders, hpublished, hsteps⟩ := h
  cases hpoint
  refine ⟨hid, hparent, hattributes, rfl, ?_, horders, ?_, hsteps⟩
  · exact List.getLast?_concat.symm
  · show (published ++ [p]) ++ [] = _
    rw [List.append_nil]
    exact hpublished

/-- Every step of the loop keeps the bench. -/
lemma work (h : b.Keeps o j) (timing : Timing) (head : Option Hash) (now : Nat) :
    b.KeptBy o j (.work head now) ((b.loop j).work timing head now) := by
  obtain ⟨point, orders, outcomes, published⟩ := b
  have hsteps := h.inStep
  have hloop : (Bench.mk point orders outcomes published).loop j =
      ⟨j, point, orders.length, published.length, 0⟩ := rfl
  rw [hloop]
  cases point with
  | atStart => exact (h.setDeadline _).goTo .atCancelled rfl rfl hsteps
  | atCancelled =>
    unfold Job.Loop.work
    dsimp only
    split_ifs
    · exact h.goTo .ended rfl rfl (hsteps.1.trans hsteps.2.symm)
    · exact h.goTo .atResolved rfl rfl hsteps
  | atResolved =>
    unfold Job.Loop.work
    dsimp only
    split_ifs
    · exact h.goTo .atBest rfl rfl hsteps
    · exact h.goTo .atHead rfl rfl hsteps
  | atBest =>
    unfold Job.Loop.work
    dsimp only
    split_ifs
    · exact h.goTo .ended rfl rfl (hsteps.1.trans hsteps.2.symm)
    · exact h.goTo .atHead rfl rfl hsteps
  | atHead =>
    unfold Job.Loop.work
    dsimp only
    split_ifs
    · exact h.goTo .atCall rfl rfl hsteps
    · exact h.goTo .ended rfl rfl (hsteps.1.trans hsteps.2.symm)
  | atCall => exact h.call rfl
  | inCall => exact h.stay
  | atPublish p => exact h.publish rfl
  | atFailed =>
    unfold Job.Loop.work
    dsimp only
    split_ifs
    · exact h.goTo .atFailedBest rfl rfl hsteps
    · exact h.goTo .atClock rfl rfl hsteps
  | atFailedBest =>
    unfold Job.Loop.work
    dsimp only
    split_ifs
    · exact h.goTo .ended rfl rfl (hsteps.1.trans hsteps.2.symm)
    · exact h.goTo .atClock rfl rfl hsteps
  | atClock =>
    unfold Job.Loop.work
    dsimp only
    split_ifs
    · exact h.countRound .ended rfl rfl (hsteps.1.trans hsteps.2.symm)
    · exact h.countRound (.asleep _) rfl rfl hsteps
  | asleep time =>
    unfold Job.Loop.work
    dsimp only
    split_ifs
    · exact h.goTo .atCancelled rfl rfl hsteps
    · exact h.stay
  | ended => exact h.stay
  | crashed => exact h.stay

/-- The answer is noted, and if it is a payload, the loop has it in its hands. -/
lemma take (h : b.Keeps o j) (hpoint : b.point = .inCall) {outcome : Job.Outcome}
    (point : Job.Point)
    (hhand : { b with point }.inHand = Job.Outcome.payload? (outcome, j.iteration))
    (hsteps : b.orders.length = j.iteration + 1 → b.outcomes.length = j.iteration →
      { b with point, outcomes := b.outcomes ++ [outcome] }.InStep j.iteration) :
    { b with point, outcomes := b.outcomes ++ [outcome] }.Keeps o
      { j with phase := point.phase } := by
  obtain ⟨before, orders, outcomes, published⟩ := b
  obtain ⟨hid, hparent, hattributes, -, hbest, horders, hpublished, hcounts⟩ := h
  cases hpoint
  obtain ⟨hlength, hlength'⟩ :
      orders.length = j.iteration + 1 ∧ outcomes.length = j.iteration := hcounts
  have hpublished : published ++ [] = Job.Outcome.payloads outcomes := hpublished
  refine ⟨hid, hparent, hattributes, rfl, hbest, horders, ?_, hsteps hlength hlength'⟩
  show published ++ ({ point, orders, outcomes, published : Bench }.inHand).toList = _
  rw [hhand, Job.Outcome.payloads_append, hlength', ← hpublished, List.append_nil]

/-- And so does every answer of the builder. -/
lemma answer (h : b.Keeps o j) (outcome : Job.Outcome) :
    b.KeptBy o j (.answer outcome) ((b.loop j).answer outcome) := by
  obtain ⟨point, orders, outcomes, published⟩ := b
  have hmore {n : Nat} (horders : orders.length = n + 1) (houtcomes : outcomes.length = n) :
      orders.length = n + 1 ∧ (outcomes ++ [outcome]).length = n + 1 :=
    ⟨horders, by rw [List.length_append, List.length_singleton, houtcomes]⟩
  cases point with
  | inCall =>
    cases outcome with
    | built p => exact h.take rfl (.atPublish _) rfl hmore
    | failed => exact h.take rfl .atFailed rfl hmore
    | crashed =>
      exact h.take rfl .crashed rfl fun horders houtcomes =>
        (hmore horders houtcomes).1.trans (hmore horders houtcomes).2.symm
  | _ => exact h.stay

/-- No call is answered that was not begun. -/
lemma length_outcomes_le (h : b.Keeps o j) : b.outcomes.length ≤ b.orders.length := by
  obtain ⟨point, orders, outcomes, published⟩ := b
  have hsteps := h.inStep
  show outcomes.length ≤ orders.length
  cases point with
  | inCall =>
    obtain ⟨horders, houtcomes⟩ :
      orders.length = j.iteration + 1 ∧ outcomes.length = j.iteration := hsteps
    omega
  | ended => exact Nat.le_of_eq (Eq.symm hsteps)
  | crashed => exact Nat.le_of_eq (Eq.symm hsteps)
  | _ => exact Nat.le_of_eq (hsteps.2.trans hsteps.1.symm)

lemma pairwise_published (h : b.Keeps o j) : b.published.Pairwise (·.iteration < ·.iteration) := by
  have hpayloads := Job.Outcome.pairwise_payloads b.outcomes
  rw [← h.published_eq] at hpayloads
  exact hpayloads.sublist (List.sublist_append_left _ _)

end Keeps

/-- The payload is the last one that the job has published.  The builder made it of an order of the
commission, and its number is that of the calls that the job had made before. -/
structure Vouches (b : Bench) (o : Commission) (p : BuiltPayload) : Prop where
  last : b.published.getLast? = some p
  order : b.orders[p.iteration]? = some ⟨o.parent, o.attributes, p.iteration⟩
  outcome : ∃ q, b.outcomes[p.iteration]? = some (.built q) ∧ p = { q with iteration := p.iteration }

lemma Keeps.vouches (h : b.Keeps o j) {p : BuiltPayload} (hlast : b.published.getLast? = some p) :
    b.Vouches o p := by
  have hmem : p ∈ Job.Outcome.payloads b.outcomes := by
    rw [← h.published_eq]
    exact List.mem_append_left _ (List.mem_of_getLast? hlast)
  obtain ⟨q, hq, hp⟩ := Job.Outcome.mem_payloads hmem
  have hlt : p.iteration < b.orders.length :=
    Nat.lt_of_lt_of_le (List.getElem?_eq_some_iff.1 hq).1 h.length_outcomes_le
  refine ⟨hlast, ?_, q, hq, hp⟩
  rw [h.orders_eq, List.getElem?_map, List.getElem?_range hlt]
  rfl

end Bench

end ChainHead
