import ChainHead.Proofs.Engine.Run

/-!
# Finality is irrevocable

One step of a run only adds to the stored chain, and it replaces a finalized block only by one that
descends from it (`Engine.Step.extends`).  A request that moves the pointers compares the new
finalized block with the one before and with no earlier one.  Since descent is transitive, and lasts
while the chain grows, this is enough for whole runs (`Engine.Reaches.extends`): a block that was
finalized once stays below all pointers that are ever set (`Engine.finality_irrevocable`).
-/

namespace ChainHead

namespace Engine

variable {e e' e'' : Engine}

/-- The stored chain grows, and a finalized block is replaced only by one that descends from it. -/
structure Extends (e e' : Engine) : Prop where
  growsTo : e.store.database.chain.GrowsTo e'.store.database.chain
  finalized : ∀ f ∈ e.heads.finalized, ∃ g ∈ e'.heads.finalized,
    e'.store.database.chain.isAncestor? f g = .ok (some true)

/-- Where the pointers stay, the chain only has to grow. -/
lemma Extends.of_heads_eq (hheads : e'.heads = e.heads)
    (hgrow : e.store.database.chain.GrowsTo e'.store.database.chain) : Extends e e' where
  growsTo := hgrow
  finalized f hf := ⟨f, hheads ▸ hf, Chain.isAncestor?_self _ f⟩

lemma Extends.trans (hsound : Sound e) (hsound' : Sound e') (hsound'' : Sound e'')
    (h : Extends e e') (h' : Extends e' e'') : Extends e e'' where
  growsTo := h.growsTo.trans h'.growsTo
  finalized f hf := by
    obtain ⟨g, hg, hfg⟩ := h.finalized f hf
    obtain ⟨k, hk, hgk⟩ := h'.finalized g hg
    refine ⟨k, hk, ?_⟩
    have hf' := ((hsound.carries.finalized f hf).grow h.growsTo).grow h'.growsTo
    have hg' := (hsound'.carries.finalized g hg).grow h'.growsTo
    have hk' := hsound''.carries.finalized k hk
    exact Chain.isAncestor?_trans hsound''.built.faithful hf' hg' hk'
      (Chain.isAncestor?_grow h'.growsTo hfg) hgk

/-! ## One step -/

/-- An accepted fork choice keeps finality. -/
lemma Accepts.extends {state : ForkchoiceState} {new : Heads} (haccept : e.Accepts state new) :
    Extends e (e.moveTo new) where
  growsTo := by
    rw [moveTo_database_chain]
    exact .refl _
  finalized f hf := by
    have hkeep := Chain.finalityObjection?_eq_none_iff.1 haccept.unopposed
    obtain ⟨-, g, hg, hfg⟩ := hkeep f hf
    rw [moveTo_heads, moveTo_database_chain]
    exact ⟨g, hg, Chain.isAncestor?_grow e.store.chain_growsTo hfg⟩

theorem Step.extends (hstep : Step e e') (h : Sound e) : Extends e e' := by
  cases hstep with
  | request v param attributes hanswer =>
    obtain ⟨metrics, hafter⟩ | ⟨state, new, coordinator, metrics, haccept, hafter⟩ :=
      (e.answered v param attributes).after_eq hanswer
    · rw [hafter]
      exact .of_heads_eq rfl (.refl _)
    · rw [hafter]
      exact ⟨haccept.extends.growsTo, haccept.extends.finalized⟩
  | insertBlock b hb => exact .of_heads_eq rfl (Database.growsTo_insertBlock hb)
  | insertBadBlock b => exact .of_heads_eq rfl (.refl _)
  | initGenesis b hb hinit =>
    rw [Database.initGenesis_of_heads? h.persisted] at hinit
    cases hinit
    exact .of_heads_eq rfl (Database.growsTo_insertBlock (Database.admits_of_stored hb))
  | faults faults => exact .of_heads_eq rfl (.refl _)
  | work coordinator => exact .of_heads_eq rfl (.refl _)
  | restart schedule coordinator metrics hstart =>
    obtain ⟨heads, hheads, rfl⟩ := start_eq_ok_iff.1 hstart
    cases h.persisted.symm.trans (Store.database_heads?_of_heads? hheads)
    exact .of_heads_eq rfl (.refl _)

/-! ## Whole runs -/

theorem Reaches.extends (h : Reachable e) (hreach : Reaches e e') : Extends e e' := by
  induction hreach with
  | refl => exact .of_heads_eq rfl (.refl _)
  | tail hreach' hstep ih =>
    have hmid := h.trans hreach'
    exact ih.trans h.sound hmid.sound (hmid.step hstep).sound (hstep.extends hmid.sound)

/-- Once a block is finalized, in every later state of the run some block is finalized, and the
finalized block, the safe one if it is set, and the head all descend from the first one or are
it. -/
theorem finality_irrevocable (h : Reachable e) (hreach : Reaches e e') {f : Block}
    (hf : e.heads.finalized = some f) :
    ∃ g, e'.heads.finalized = some g ∧
      e'.store.database.chain.isAncestor? f g = .ok (some true) ∧
      (∀ s, e'.heads.safe = some s →
        e'.store.database.chain.isAncestor? f s = .ok (some true)) ∧
      e'.store.database.chain.isAncestor? f e'.heads.head = .ok (some true) := by
  have hextends := Reaches.extends h hreach
  have hsound := (h.trans hreach).sound
  obtain ⟨g, hg, hfg⟩ := hextends.finalized f hf
  have hf' : e'.store.database.chain.Stored f :=
    (h.sound.carries.finalized f hf).grow hextends.growsTo
  have hg' := hsound.carries.finalized g hg
  -- what lies above the block finalized last lies above every block finalized before
  have habove {x : Block} (hx : e'.store.database.chain.Stored x)
      (hgx : e'.store.database.chain.isAncestor? g x = .ok (some true)) :
      e'.store.database.chain.isAncestor? f x = .ok (some true) :=
    Chain.isAncestor?_trans hsound.built.faithful hf' hg' hx hfg hgx
  refine ⟨g, hg, hfg, ?_, ?_⟩
  · intro s hs
    exact habove (hsound.carries.safe s hs) (hsound.carries.ordered.finalized_safe g hg s hs)
  · exact habove hsound.carries.head (hsound.carries.ordered.finalized_head g hg)

theorem finality_irrevocable_afterSecond :
    Reachable afterFirst ∧ Reaches afterFirst afterSecond ∧
      afterFirst.heads.finalized = some firstBlock ∧
      ∃ g, afterSecond.heads.finalized = some g ∧
        afterSecond.store.database.chain.isAncestor? firstBlock g = .ok (some true) ∧
        (∀ s, afterSecond.heads.safe = some s →
          afterSecond.store.database.chain.isAncestor? firstBlock s = .ok (some true)) ∧
        afterSecond.store.database.chain.isAncestor? firstBlock afterSecond.heads.head =
          .ok (some true) := by
  have hfinalized : afterFirst.heads.finalized = some firstBlock := by
    obtain ⟨metrics, hafter⟩ := exists_afterFirst
    rw [hafter]
    simp only [moveTo_heads]
    rfl
  exact ⟨reachable_afterFirst, reaches_afterSecond, hfinalized,
    finality_irrevocable reachable_afterFirst reaches_afterSecond hfinalized⟩

end Engine

end ChainHead
