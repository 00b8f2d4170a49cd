import ChainHead.Proofs.Comparison

/-!
# What resolves

`Chain.resolve` looks up what a fork choice names and then compares the blocks.  `Chain.Ends` lists
how the look-ups can end; where each hash refers to a stored block or to none (`Chain.Names`), only
the comparison is left.  So a fork choice resolves exactly to the pointers that it names and that
lie on one branch (`Chain.Resolves`, `Chain.resolve_eq_resolved_iff`).

Pointers that resolve are carried by the chain (`Chain.Carries`): each is a stored block, and the
finalized block lies below the safe one and both below the head.  A chain that grows carries them
on.

Against pointers that are set, only those may follow that keep a finalized block
(`Chain.KeepsFinality`, `Chain.judge_eq_resolved_iff`).
-/

namespace ChainHead

/-- The hash for a pointer. -/
def ForkchoiceState.hashFor (state : ForkchoiceState) : Pointer → Hash
  | .head => state.headBlockHash
  | .safe => state.safeBlockHash
  | .finalized => state.finalizedBlockHash

namespace Chain

variable {chain chain' : Chain} {state : ForkchoiceState} {current heads new : Heads} {b : Block}
  {hash : Hash} {o : Option Block} {pointer : Pointer} {next : Option Block → Except Failure Resolution}

/-! ## What hashes refer to -/

/-- The hash refers to this block, or, if it is zero, to none. -/
def Refers (chain : Chain) (hash : Hash) : Option Block → Prop
  | none => hash = .zero 32
  | some b => hash ≠ .zero 32 ∧ chain.block? hash = .ok (some b)

/-- The hash refers to a block that is not stored. -/
def Misses (chain : Chain) (hash : Hash) : Prop :=
  hash ≠ .zero 32 ∧ chain.block? hash = .ok none

/-- The chain cannot be read for this reason. -/
def Fails (chain : Chain) (failure : Failure) : Prop :=
  (∃ hash, chain.block? hash = .error failure) ∨ ∃ hash, chain.badBlock? hash = .error failure

lemma Refers.found (h : chain.Refers hash o) : ∀ b ∈ o, chain.block? hash = .ok (some b) := by
  rintro b rfl
  exact h.2

lemma Refers.stored (hf : chain.Faithful) (h : chain.Refers hash o) : ∀ b ∈ o, chain.Stored b :=
  fun b hb => hf.stored (h.found b hb)

lemma Refers.grow (h : chain.Refers hash o) (hgrow : chain.GrowsTo chain') :
    chain'.Refers hash o := by
  cases o with
  | none => exact h
  | some b => exact ⟨h.1, hgrow _ _ h.2⟩

lemma Refers.not_misses (h : chain.Refers hash o) : ¬ chain.Misses hash := by
  rintro ⟨hne, hmissing⟩
  cases o with
  | none => exact hne h
  | some b => cases hmissing.symm.trans h.2

/-! ## Look-ups -/

/-- The fork choice names these pointers, whatever their order. -/
structure Names (chain : Chain) (state : ForkchoiceState) (heads : Heads) : Prop where
  head_ne_zero : state.headBlockHash ≠ .zero 32
  not_rejected : chain.badBlock? state.headBlockHash = .ok none
  head : chain.block? state.headBlockHash = .ok (some heads.head)
  safe : chain.Refers state.safeBlockHash heads.safe
  finalized : chain.Refers state.finalizedBlockHash heads.finalized

/-- What is named is stored. -/
lemma Names.not_misses (h : chain.Names state heads) (pointer : Pointer) :
    ¬ chain.Misses (state.hashFor pointer) := by
  cases pointer with
  | head =>
    rintro ⟨-, hmissing⟩
    cases hmissing.symm.trans h.head
  | safe => exact h.safe.not_misses
  | finalized => exact h.finalized.not_misses

/-- What is named has every property that all stored blocks have. -/
lemma Names.all {P : Block → Prop} (h : chain.Names state heads)
    (hfound : ∀ hash b, chain.block? hash = .ok (some b) → P b) : heads.All P where
  head := hfound _ _ h.head
  safe s hs := hfound _ s (h.safe.found s hs)
  finalized f hf := hfound _ f (h.finalized.found f hf)

/-- What is named in a chain is named in one that has grown and rejects no more. -/
lemma Names.grow (h : chain.Names state heads) (hgrow : chain.GrowsTo chain')
    (hbad : chain'.badBlock? = chain.badBlock?) : chain'.Names state heads where
  head_ne_zero := h.head_ne_zero
  not_rejected := hbad ▸ h.not_rejected
  head := hgrow _ _ h.head
  safe := h.safe.grow hgrow
  finalized := h.finalized.grow hgrow

/-- Looks a hash up that must not be missing, and goes on with what it refers to. -/
def withReference (chain : Chain) (hash : Hash) (pointer : Pointer)
    (next : Option Block → Except Failure Resolution) : Except Failure Resolution := do
  match ← chain.reference hash with
  | .missing => return .unknown pointer
  | r => next r.block?

lemma withReference_of_refers (h : chain.Refers hash o) :
    chain.withReference hash pointer next = next o := by
  unfold withReference reference
  cases o with
  | none =>
    have hzero : hash = .zero 32 := h
    rw [if_pos hzero]
    rfl
  | some b =>
    rw [if_neg h.1, h.2]
    rfl

/-- A look-up goes on, or it stops because the block is missing or because it cannot be read. -/
lemma withReference_cases (chain : Chain) (hash : Hash) (pointer : Pointer)
    (next : Option Block → Except Failure Resolution) :
    (∃ o, chain.Refers hash o ∧ chain.withReference hash pointer next = next o) ∨
      chain.Misses hash ∧ chain.withReference hash pointer next = .ok (.unknown pointer) ∨
        ∃ failure, chain.Fails failure ∧
          chain.withReference hash pointer next = .error failure := by
  by_cases hzero : hash = .zero 32
  · exact .inl ⟨none, hzero, withReference_of_refers (o := none) hzero⟩
  match hfound : chain.block? hash with
  | .ok (some b) =>
    have hrefers : chain.Refers hash (some b) := ⟨hzero, hfound⟩
    exact .inl ⟨some b, hrefers, withReference_of_refers hrefers⟩
  | .ok none =>
    refine .inr (.inl ⟨⟨hzero, hfound⟩, ?_⟩)
    unfold withReference reference
    rw [if_neg hzero, hfound]
    rfl
  | .error failure =>
    refine .inr (.inr ⟨failure, .inl ⟨hash, hfound⟩, ?_⟩)
    unfold withReference reference
    rw [if_neg hzero, hfound]
    rfl

/-- With its head found, a fork choice is resolved by looking up the other two blocks. -/
lemma resolve_of_head {b : Block} (hne : state.headBlockHash ≠ .zero 32)
    (hbad : chain.badBlock? state.headBlockHash = .ok none)
    (hhead : chain.block? state.headBlockHash = .ok (some b)) :
    chain.resolve state =
      chain.withReference state.safeBlockHash .safe fun safe =>
        chain.withReference state.finalizedBlockHash .finalized fun finalized =>
          chain.resolveBlocks ⟨b, safe, finalized⟩ := by
  unfold Chain.resolve
  rw [if_neg hne, hbad]
  show (chain.block? state.headBlockHash >>= _) = _
  rw [hhead]
  rfl

/-- Where all is named, only the comparison is left. -/
theorem Names.resolve_eq (h : chain.Names state heads) :
    chain.resolve state = chain.resolveBlocks heads := by
  rw [resolve_of_head h.head_ne_zero h.not_rejected h.head, withReference_of_refers h.safe,
    withReference_of_refers h.finalized]

/-! ## How resolving ends -/

/-- What resolving a fork choice comes to, and why. -/
inductive Ends (chain : Chain) (state : ForkchoiceState) : Except Failure Resolution → Prop where
  /-- The head is zero. -/
  | zeroHead (hzero : state.headBlockHash = .zero 32) :
      Ends chain state (.ok (.invalid none .zeroHead))
  /-- The head was turned down. -/
  | rejectedHead {bad : BadBlock} (hne : state.headBlockHash ≠ .zero 32)
      (hbad : chain.badBlock? state.headBlockHash = .ok (some bad)) :
      Ends chain state (.ok (.invalid bad.latestValidAncestor (.rejectedHead bad.reason)))
  /-- A block is missing. -/
  | missing {pointer : Pointer} (hne : state.headBlockHash ≠ .zero 32)
      (hbad : chain.badBlock? state.headBlockHash = .ok none)
      (hmisses : chain.Misses (state.hashFor pointer)) :
      Ends chain state (.ok (.unknown pointer))
  /-- All is named and compared. -/
  | compared {heads : Heads} (hnames : chain.Names state heads) :
      Ends chain state (chain.resolveBlocks heads)
  /-- The chain cannot be read. -/
  | unreadable {failure : Failure} (hfails : chain.Fails failure) :
      Ends chain state (.error failure)

/-- With its head found, a fork choice is compared unless another look-up stops it. -/
lemma ends_of_head {b : Block} (hne : state.headBlockHash ≠ .zero 32)
    (hbad : chain.badBlock? state.headBlockHash = .ok none)
    (hhead : chain.block? state.headBlockHash = .ok (some b)) :
    chain.Ends state (chain.resolve state) := by
  rw [resolve_of_head hne hbad hhead]
  obtain ⟨safe, hsafe, hnext⟩ | ⟨hmisses, hnext⟩ | ⟨failure, hfails, hnext⟩ :=
    chain.withReference_cases state.safeBlockHash .safe fun safe =>
      chain.withReference state.finalizedBlockHash .finalized fun finalized =>
        chain.resolveBlocks ⟨b, safe, finalized⟩
  · rw [hnext]
    obtain ⟨finalized, hfinalized, hlast⟩ | ⟨hmisses, hlast⟩ | ⟨failure, hfails, hlast⟩ :=
      chain.withReference_cases state.finalizedBlockHash .finalized fun finalized =>
        chain.resolveBlocks ⟨b, safe, finalized⟩
    · rw [hlast]
      exact .compared ⟨hne, hbad, hhead, hsafe, hfinalized⟩
    · rw [hlast]
      exact .missing hne hbad hmisses
    · rw [hlast]
      exact .unreadable hfails
  · rw [hnext]
    exact .missing hne hbad hmisses
  · rw [hnext]
    exact .unreadable hfails

/-- Every resolution ends in one of these ways. -/
theorem ends (chain : Chain) (state : ForkchoiceState) :
    chain.Ends state (chain.resolve state) := by
  by_cases hzero : state.headBlockHash = .zero 32
  · rw [Chain.resolve, if_pos hzero]
    exact .zeroHead hzero
  match hbad : chain.badBlock? state.headBlockHash with
  | .error failure =>
    rw [Chain.resolve, if_neg hzero, hbad]
    exact .unreadable (.inr ⟨_, hbad⟩)
  | .ok (some bad) =>
    rw [Chain.resolve, if_neg hzero, hbad]
    exact .rejectedHead hzero hbad
  | .ok none =>
    match hhead : chain.block? state.headBlockHash with
    | .ok (some b) => exact ends_of_head hzero hbad hhead
    | .ok none =>
      have hresolve : chain.resolve state = .ok (.unknown .head) := by
        rw [Chain.resolve, if_neg hzero, hbad]
        show (chain.block? state.headBlockHash >>= _) = _
        rw [hhead]
        rfl
      rw [hresolve]
      exact .missing hzero hbad ⟨hzero, hhead⟩
    | .error failure =>
      have hresolve : chain.resolve state = .error failure := by
        rw [Chain.resolve, if_neg hzero, hbad]
        show (chain.block? state.headBlockHash >>= _) = _
        rw [hhead]
        rfl
      rw [hresolve]
      exact .unreadable (.inl ⟨_, hhead⟩)

/-! ## Resolving -/

/-- The fork choice resolves to the pointers. -/
structure Resolves (chain : Chain) (state : ForkchoiceState) (h : Heads) : Prop where
  head_ne_zero : state.headBlockHash ≠ .zero 32
  not_rejected : chain.badBlock? state.headBlockHash = .ok none
  head : chain.block? state.headBlockHash = .ok (some h.head)
  safe : chain.Refers state.safeBlockHash h.safe
  finalized : chain.Refers state.finalizedBlockHash h.finalized
  ordered : chain.Ordered h

lemma Resolves.grow (h : chain.Resolves state heads) (hgrow : chain.GrowsTo chain')
    (hbad : chain'.badBlock? state.headBlockHash = chain.badBlock? state.headBlockHash) :
    chain'.Resolves state heads where
  head_ne_zero := h.head_ne_zero
  not_rejected := hbad.trans h.not_rejected
  head := hgrow _ _ h.head
  safe := h.safe.grow hgrow
  finalized := h.finalized.grow hgrow
  ordered := h.ordered.grow hgrow

lemma Resolves.names (h : chain.Resolves state heads) : chain.Names state heads :=
  ⟨h.head_ne_zero, h.not_rejected, h.head, h.safe, h.finalized⟩

/-- A fork choice resolves to what it names, if that lies on one branch. -/
theorem resolve_eq_resolved_iff {h : Heads} :
    chain.resolve state = .ok (.resolved h) ↔ chain.Resolves state h := by
  constructor
  · intro heq
    have hends := chain.ends state
    generalize chain.resolve state = result at heq hends
    cases hends with
    | zeroHead _ => cases heq
    | rejectedHead _ _ => cases heq
    | missing _ _ _ => cases heq
    | unreadable _ => cases heq
    | compared hnames =>
      obtain ⟨rfl, hordered⟩ := resolveBlocks_eq_resolved_iff.1 heq
      exact ⟨hnames.head_ne_zero, hnames.not_rejected, hnames.head, hnames.safe,
        hnames.finalized, hordered⟩
  · intro h
    rw [h.names.resolve_eq, h.ordered.resolveBlocks_eq]

/-! ## Pointers that a chain carries -/

/-- The pointers that are set are stored blocks on one branch. -/
structure Carries (chain : Chain) (h : Heads) : Prop where
  head : chain.Stored h.head
  safe : ∀ s ∈ h.safe, chain.Stored s
  finalized : ∀ f ∈ h.finalized, chain.Stored f
  ordered : chain.Ordered h

lemma Resolves.carries {h : Heads} (hf : chain.Faithful)
    (hh : chain.Resolves state h) : chain.Carries h where
  head := hf.stored hh.head
  safe := hh.safe.stored hf
  finalized := hh.finalized.stored hf
  ordered := hh.ordered

lemma Carries.grow {h : Heads} (hh : chain.Carries h) (hgrow : chain.GrowsTo chain') :
    chain'.Carries h where
  head := hh.head.grow hgrow
  safe s hs := (hh.safe s hs).grow hgrow
  finalized f hf := (hh.finalized f hf).grow hgrow
  ordered := hh.ordered.grow hgrow

lemma carries_ofGenesis (hb : chain.Stored b) : chain.Carries (.ofGenesis b) where
  head := hb
  safe := nofun
  finalized := nofun
  ordered := ⟨nofun, nofun, nofun⟩

/-! ## Finality -/

/-- Once a finalized block is set, it is replaced only by one above it, and not without a safe
block. -/
def KeepsFinality (chain : Chain) (current new : Heads) : Prop :=
  ∀ f ∈ current.finalized,
    new.safe.isSome = true ∧ ∃ g ∈ new.finalized, chain.isAncestor? f g = .ok (some true)

/-- Pointers may stay as they are unless they have a finalized block without a safe one. -/
lemma keepsFinality_self_iff {h : Heads} :
    chain.KeepsFinality h h ↔ (h.finalized.isSome = true → h.safe.isSome = true) := by
  constructor
  · intro hkeep hset
    obtain ⟨f, hf⟩ := Option.isSome_iff_exists.1 hset
    exact (hkeep f hf).1
  · intro hsafe f hf
    exact ⟨hsafe (Option.isSome_iff_exists.2 ⟨f, hf⟩), f, hf, isAncestor?_self chain f⟩

lemma KeepsFinality.grow (h : chain.KeepsFinality current new) (hgrow : chain.GrowsTo chain') :
    chain'.KeepsFinality current new := by
  intro f hf
  obtain ⟨hsafe, g, hg, hfg⟩ := h f hf
  exact ⟨hsafe, g, hg, isAncestor?_grow hgrow hfg⟩

/-- What finality comes to, and why. -/
inductive FinalityEnds (chain : Chain) (current new : Heads) :
    Except Failure (Option Resolution) → Prop where
  /-- No finalized block is set. -/
  | unbound (hcurrent : current.finalized = none) : FinalityEnds chain current new (.ok none)
  /-- The finalized block is dropped. -/
  | finalizedUnset {f : Block} (hcurrent : current.finalized = some f)
      (hnew : new.finalized = none) :
      FinalityEnds chain current new (.ok (some (.invalid (some f.hash) .finalizedUnset)))
  /-- There is no safe block. -/
  | safeUnset {f g : Block} (hcurrent : current.finalized = some f)
      (hnew : new.finalized = some g) (hsafe : new.safe = none) :
      FinalityEnds chain current new (.ok (some (.invalid (some g.hash) .safeUnset)))
  /-- The two finalized blocks are compared. -/
  | compared {f g : Block} (hcurrent : current.finalized = some f)
      (hnew : new.finalized = some g) (hsafe : new.safe.isSome = true) :
      FinalityEnds chain current new
        (chain.dispute f g .finalized (.finalizedMoved g.hash f.hash))

theorem finality_ends (chain : Chain) (current new : Heads) :
    chain.FinalityEnds current new (chain.finalityObjection? current new) := by
  unfold finalityObjection?
  match hcurrent : current.finalized, hnew : new.finalized, hsafe : new.safe with
  | none, _, _ => exact .unbound hcurrent
  | some _, none, _ => exact .finalizedUnset hcurrent hnew
  | some _, some _, none => exact .safeUnset hcurrent hnew hsafe
  | some f, some g, some _ =>
    show chain.FinalityEnds current new (chain.moveObjection? f g)
    rw [moveObjection?_eq_dispute]
    exact .compared hcurrent hnew (Option.isSome_iff_exists.2 ⟨_, hsafe⟩)

lemma finalityObjection?_ne_resolved (current new heads : Heads) :
    chain.finalityObjection? current new ≠ .ok (some (.resolved heads)) := by
  have hends := chain.finality_ends current new
  generalize chain.finalityObjection? current new = result at hends
  cases hends with
  | unbound _ => exact nofun
  | finalizedUnset _ _ => exact nofun
  | safeUnset _ _ _ => exact nofun
  | compared _ _ _ => exact dispute_ne_resolved

theorem finalityObjection?_eq_none_iff :
    chain.finalityObjection? current new = .ok none ↔ chain.KeepsFinality current new := by
  have hends := chain.finality_ends current new
  generalize chain.finalityObjection? current new = result at hends
  cases hends with
  | unbound hcurrent =>
    refine iff_of_true rfl fun f hf => ?_
    cases hcurrent.symm.trans hf
  | finalizedUnset hcurrent hnew =>
    refine iff_of_false nofun fun hkeep => ?_
    obtain ⟨-, g, hg, -⟩ := hkeep _ hcurrent
    cases hnew.symm.trans hg
  | safeUnset hcurrent _ hsafe =>
    refine iff_of_false nofun fun hkeep => ?_
    have hset := (hkeep _ hcurrent).1
    rw [hsafe] at hset
    cases hset
  | @compared f g hcurrent hnew hsafe =>
    rw [dispute_eq_none_iff]
    constructor
    · intro hfg f' hf'
      cases hcurrent.symm.trans hf'
      exact ⟨hsafe, g, hnew, hfg⟩
    · intro hkeep
      obtain ⟨-, g', hg', hfg⟩ := hkeep f hcurrent
      cases hnew.symm.trans hg'
      exact hfg

/-- A fork choice is approved exactly if it resolves to pointers to whose finality nobody
objects. -/
theorem judge_eq_resolved_iff :
    chain.judge current state = .ok (.resolved new) ↔
      chain.resolve state = .ok (.resolved new) ∧
        chain.finalityObjection? current new = .ok none := by
  unfold judge
  rw [bind_eq_ok_iff]
  constructor
  · rintro ⟨resolution, hresolve, h⟩
    match resolution with
    | .resolved heads =>
      obtain ⟨_ | objection, hobjection, h⟩ := bind_eq_ok_iff.1 h
      · cases h
        exact ⟨hresolve, hobjection⟩
      · cases h
        exact absurd hobjection (finalityObjection?_ne_resolved current heads new)
    | .unknown _ => cases h
    | .invalid _ _ => cases h
  · rintro ⟨hresolve, hobjection⟩
    exact ⟨_, hresolve, bind_eq_ok_iff.2 ⟨_, hobjection, rfl⟩⟩

/-- Any other judgement was made when resolving, or it is an objection for the sake of finality. -/
theorem judge_eq_ok_iff_of_ne {r : Resolution} (hne : ∀ h, r ≠ .resolved h) :
    chain.judge current state = .ok r ↔
      chain.resolve state = .ok r ∨
        ∃ new, chain.resolve state = .ok (.resolved new) ∧
          chain.finalityObjection? current new = .ok (some r) := by
  unfold judge
  rw [bind_eq_ok_iff]
  constructor
  · rintro ⟨resolution, hresolve, h⟩
    match resolution with
    | .resolved new =>
      obtain ⟨_ | objection, hobjection, h⟩ := bind_eq_ok_iff.1 h
      · exact absurd (Except.ok.inj h).symm (hne new)
      · cases h
        exact .inr ⟨new, hresolve, hobjection⟩
    | .unknown _ =>
      cases h
      exact .inl hresolve
    | .invalid _ _ =>
      cases h
      exact .inl hresolve
  · rintro (hresolve | ⟨new, hresolve, hobjection⟩)
    · refine ⟨r, hresolve, ?_⟩
      cases r with
      | resolved h => exact absurd rfl (hne h)
      | unknown _ => rfl
      | invalid _ _ => rfl
    · exact ⟨_, hresolve, bind_eq_ok_iff.2 ⟨_, hobjection, rfl⟩⟩

end Chain

end ChainHead
