import ChainHead.Proofs.GreatestCommon

/-!
# The finalized block against the safe one

Pointers are compared in pairs, and the finalized block is compared with the safe one last.  By then
both are known to be ancestors of the head.  The links from the head lead to both, so they lead from
the higher to the lower, and what is left to compare are the heights
(`Chain.isAncestor?_of_common_descendant`).  If the finalized block is the higher one, then the safe
block is what the two have in common, and it is reported as the last valid one
(`Chain.Checks.finalizedSafe_objection?_eq`).

This comparison is the only one that could find a gap below the safe block.  It finds none, so a
safe block is reported as unknown only if it is missing (`Chain.misses_safe_of_resolve`).
`Database.resolve_compares_heights` says both of all databases.
-/

namespace ChainHead

namespace Chain

variable {chain : Chain} {state : ForkchoiceState} {heads : Heads} {a b d f s : Block}

/-! ## Two blocks below one -/

/-- Of two ancestors of one block, one is an ancestor of the other exactly if it is no higher. -/
lemma isAncestor?_of_common_descendant (hf : chain.Faithful) (ha : chain.Stored a)
    (hb : chain.Stored b) (hda : chain.Leads d a) (hdb : chain.Leads d b) :
    chain.isAncestor? a b = .ok (some (decide (a.number ≤ b.number))) := by
  by_cases hle : a.number ≤ b.number
  · rw [decide_eq_true hle, isAncestor?_eq_true_iff_leads hf ha hb]
    exact hda.leads_of_number_le hdb hle
  · rw [decide_eq_false hle]
    exact isAncestor?_of_lt (UInt64.not_le.1 hle)

/-- If it is higher, then the other one is what they have in common. -/
lemma commonAncestor?_of_common_descendant (hf : chain.Faithful) (ha : chain.Stored a)
    (hb : chain.Stored b) (hda : chain.Leads d a) (hdb : chain.Leads d b)
    (hlt : b.number < a.number) : chain.commonAncestor? a b = .ok (some b) := by
  have hab : chain.Leads a b := hdb.leads_of_number_le hda (UInt64.le_of_lt hlt)
  have hba := commonAncestor?_of_isAncestor? hf hb ha hab
  exact ((commonAncestor?_agrees hf ha hb).eq_ok_iff _).2 hba

/-! ## The last comparison -/

/-- What there is to say against a finalized and a safe block below one head: that the finalized
block is the higher one. -/
def tooHigh? (f s : Block) : Option Resolution :=
  if f.number ≤ s.number then none
  else some (.invalid (some s.hash) (.notAncestor .finalized f.hash .safe s.hash))

/-- The last comparison looks at the heights alone. -/
theorem Checks.finalizedSafe_objection?_eq (hf : chain.Faithful) (hheads : heads.All chain.Stored)
    (hchecks : chain.Checks heads ⟨.finalized, f⟩ ⟨.safe, s⟩) :
    chain.objection? ⟨.finalized, f⟩ ⟨.safe, s⟩ = .ok (tooHigh? f s) := by
  obtain ⟨hfstored, hsstored⟩ := hchecks.all hheads
  cases hchecks with
  | finalizedSafe _ _ hfh hsh =>
    rw [isAncestor?_eq_true_iff_leads hf hfstored hheads.head] at hfh
    rw [isAncestor?_eq_true_iff_leads hf hsstored hheads.head] at hsh
    have hanswer := isAncestor?_of_common_descendant hf hfstored hsstored hfh hsh
    rw [objection?_eq_dispute, tooHigh?]
    split_ifs with hle
    · rw [decide_eq_true hle] at hanswer
      exact dispute_of_settled hanswer
    · rw [decide_eq_false hle] at hanswer
      have hcommon := commonAncestor?_of_common_descendant hf hfstored hsstored hfh hsh
        (UInt64.not_le.1 hle)
      rw [dispute_of_denied hanswer, hcommon]
      rfl

/-- So pointers that get to it are approved or refused by the heights. -/
lemma Checks.finalizedSafe_resolveBlocks_eq (hf : chain.Faithful)
    (hheads : heads.All chain.Stored)
    (hchecks : chain.Checks heads ⟨.finalized, f⟩ ⟨.safe, s⟩) :
    chain.resolveBlocks heads = .ok ((tooHigh? f s).getD (.resolved heads)) := by
  have hobjection := hchecks.finalizedSafe_objection?_eq hf hheads
  by_cases hle : f.number ≤ s.number
  · rw [tooHigh?, if_pos hle] at hobjection ⊢
    have hfs := objection?_eq_none_iff.1 hobjection
    cases hchecks with
    | finalizedSafe hfinalized hsafe hfh hsh =>
      refine Ordered.resolveBlocks_eq ⟨fun g hg => ?_, fun t ht => ?_, fun g hg t ht => ?_⟩
      · cases hfinalized.symm.trans hg
        exact hfh
      · cases hsafe.symm.trans ht
        exact hsh
      · cases hfinalized.symm.trans hg
        cases hsafe.symm.trans ht
        exact hfs
  · have hsome : chain.objection? ⟨.finalized, f⟩ ⟨.safe, s⟩ ≠ .ok none := by
      rw [hobjection, tooHigh?, if_neg hle]
      exact nofun
    rw [hchecks.resolveBlocks_eq hsome, hobjection]
    rfl

/-! ## A safe block that is not known -/

/-- What is left open is left open by a gap below the later block of a pair. -/
lemma pointer_of_objection?_eq_unknown {ancestor descendant : Named} {pointer : Pointer}
    (h : chain.objection? ancestor descendant = .ok (some (.unknown pointer))) :
    pointer = descendant.pointer := by
  rw [objection?_eq_dispute] at h
  have hends := chain.dispute_ends ancestor.block descendant.block descendant.pointer
    (.notAncestor ancestor.pointer ancestor.block.hash descendant.pointer descendant.block.hash)
  rw [h] at hends
  cases hends with
  | undecided _ => rfl

/-- No comparison leaves the safe block open. -/
lemma resolveBlocks_ne_unknown_safe (hf : chain.Faithful) (hheads : heads.All chain.Stored) :
    chain.resolveBlocks heads ≠ .ok (.unknown .safe) := by
  intro h
  obtain ⟨ancestor, descendant, hchecks, hobjection⟩ := exists_checks h nofun
  have hpointer := pointer_of_objection?_eq_unknown hobjection
  cases hchecks with
  | finalizedHead _ => cases hpointer
  | safeHead _ _ => cases hpointer
  | finalizedSafe hfinalized hsafe hfh hsh =>
    have hheights := (Checks.finalizedSafe hfinalized hsafe hfh hsh).finalizedSafe_objection?_eq
      hf hheads
    rw [hobjection, tooHigh?] at hheights
    split_ifs at hheights <;> cases hheights

/-- The safe block is reported as unknown only if it is set and missing. -/
theorem misses_safe_of_resolve (hf : chain.Faithful)
    (h : chain.resolve state = .ok (.unknown .safe)) : chain.Misses state.safeBlockHash := by
  have hends := chain.ends state
  generalize hresult : chain.resolve state = result at h hends
  cases hends with
  | zeroHead _ => cases h
  | rejectedHead _ _ => cases h
  | missing _ _ hmisses =>
    cases h
    exact hmisses
  | compared hnames =>
    exact absurd h (resolveBlocks_ne_unknown_safe hf (hnames.all fun _ _ => hf.stored))
  | unreadable _ => cases h

end Chain

namespace Database

variable {db : Database}

/-! ## Databases -/

/-- In every database, a fork choice whose finalized and safe blocks were found to be ancestors of
its head is approved or refused by their heights, and a refusal names the safe block as the last
valid one.  A safe block is reported as unknown only if it is set and missing. -/
theorem resolve_compares_heights (hdb : db.Built) :
    (∀ state h f s, db.chain.Names state ⟨h, some s, some f⟩ →
      db.chain.isAncestor? f h = .ok (some true) → db.chain.isAncestor? s h = .ok (some true) →
        db.chain.objection? ⟨.finalized, f⟩ ⟨.safe, s⟩ = .ok (Chain.tooHigh? f s) ∧
          db.chain.resolve state =
            .ok (if f.number ≤ s.number then .resolved ⟨h, some s, some f⟩
              else .invalid (some s.hash) (.notAncestor .finalized f.hash .safe s.hash))) ∧
      ∀ state, db.chain.resolve state = .ok (.unknown .safe) →
        db.chain.Misses state.safeBlockHash := by
  have hf := hdb.faithful
  refine ⟨fun state h f s hnames hfh hsh => ?_, fun state => Chain.misses_safe_of_resolve hf⟩
  have hheads := hnames.all fun _ _ => hf.stored
  have hchecks : db.chain.Checks ⟨h, some s, some f⟩ ⟨.finalized, f⟩ ⟨.safe, s⟩ :=
    .finalizedSafe rfl rfl hfh hsh
  refine ⟨hchecks.finalizedSafe_objection?_eq hf hheads, ?_⟩
  rw [hnames.resolve_eq, hchecks.finalizedSafe_resolveBlocks_eq hf hheads, Chain.tooHigh?]
  split_ifs <;> rfl

/-- A fork choice of three blocks by their hashes. -/
def choiceOf (h s f : Block) : ForkchoiceState := ⟨h.hash, s.hash, f.hash⟩

lemma hash_ne_zero_forest {b : Block} (hb : b ∈ forestBlocks) : b.hash ≠ .zero 32 := by
  have hall : ∀ b ∈ forestBlocks, b.hash ≠ .zero 32 := by decide
  exact hall b hb

lemma badBlock?_forest (hash : Hash) : forest.chain.badBlock? hash = .ok none := by
  rw [forest, badBlock?_insertBlocks]
  rfl

lemma names_forest {h s f : Block} (hh : h ∈ forestBlocks) (hs : s ∈ forestBlocks)
    (hf : f ∈ forestBlocks) : forest.chain.Names (choiceOf h s f) ⟨h, some s, some f⟩ where
  head_ne_zero := hash_ne_zero_forest hh
  not_rejected := badBlock?_forest _
  head := stored_forest hh
  safe := ⟨hash_ne_zero_forest hs, stored_forest hs⟩
  finalized := ⟨hash_ne_zero_forest hf, stored_forest hf⟩

/-- A fork choice whose safe block is not stored. -/
def unseenSafe : ForkchoiceState := ⟨Engine.secondBlock.hash, orphanBlock.parentHash, .zero 32⟩

lemma resolve_unseenSafe : forest.chain.resolve unseenSafe = .ok (.unknown .safe) := by
  have hsecond : Engine.secondBlock ∈ forestBlocks := by decide
  have hne : unseenSafe.headBlockHash ≠ .zero 32 := hash_ne_zero_forest hsecond
  have hhead : forest.chain.block? unseenSafe.headBlockHash = .ok (some Engine.secondBlock) :=
    stored_forest hsecond
  have hsafe : unseenSafe.safeBlockHash ≠ .zero 32 := by decide
  have hmissing : forest.chain.block? unseenSafe.safeBlockHash = .ok none :=
    block?_orphanBlock_parent
  rw [Chain.resolve_of_head hne (badBlock?_forest _) hhead, Chain.withReference, Chain.reference,
    if_neg hsafe, hmissing]
  rfl

theorem resolve_compares_heights_forest :
    forest.Built ∧
      forest.chain.resolve (choiceOf Engine.secondBlock Engine.secondBlock Engine.firstBlock) =
        .ok (.resolved ⟨Engine.secondBlock, some Engine.secondBlock, some Engine.firstBlock⟩) ∧
      forest.chain.resolve (choiceOf Engine.secondBlock Engine.firstBlock Engine.secondBlock) =
        .ok (.invalid (some Engine.firstBlock.hash)
          (.notAncestor .finalized Engine.secondBlock.hash .safe Engine.firstBlock.hash)) ∧
      forest.chain.Misses unseenSafe.safeBlockHash := by
  have hfirst : Engine.firstBlock ∈ forestBlocks := by decide
  have hsecond : Engine.secondBlock ∈ forestBlocks := by decide
  have hbelow : forest.chain.isAncestor? Engine.firstBlock Engine.secondBlock = .ok (some true) :=
    (Chain.isAncestor?_eq_true_iff_leads built_forest.faithful (stored_forest hfirst)
      (stored_forest hsecond)).2 (.head links_secondBlock (.refl _ _))
  have hself := Chain.isAncestor?_self forest.chain Engine.secondBlock
  obtain ⟨hcompares, hmisses⟩ := resolve_compares_heights built_forest
  refine ⟨built_forest, ?_, ?_, ?_⟩
  · exact (hcompares _ _ _ _ (names_forest hsecond hsecond hfirst) hbelow hself).2
  · exact (hcompares _ _ _ _ (names_forest hsecond hfirst hsecond) hself hbelow).2
  · exact hmisses unseenSafe resolve_unseenSafe

end Database

end ChainHead
