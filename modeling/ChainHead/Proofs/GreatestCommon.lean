import ChainHead.Proofs.CommonAncestor
import ChainHead.Proofs.ParentLinks

/-!
# The greatest common ancestor

Two blocks that have an ancestor in common lead to it by links, so each of their walks gets at least
that far, and they meet on the way (`Chain.exists_commonAncestor?`).  Where they meet is therefore
the greatest common ancestor, and there is one exactly if the walks meet
(`Chain.commonAncestor?_eq_some_iff_greatest`).

To exchange the two blocks changes nothing that is found (`Chain.commonAncestor?_agrees`).  Only
where both walks meet a parent at a wrong height at one time, each order reports the one that it
comes to first.  `Database.commonAncestor?_is_greatest` says all this of databases.
-/

namespace ChainHead

/-! ## Outcomes in either order -/

section Agreement

variable {α β γ : Type} {x : Except Failure α} {y : Except Failure β}

/-- The outcomes are the same, or neither is a result. -/
inductive Agrees : Except Failure γ → Except Failure γ → Prop where
  | same (outcome : Except Failure γ) : Agrees outcome outcome
  | failed (failure failure' : Failure) : Agrees (.error failure) (.error failure')

lemma Agrees.eq_ok_iff {r r' : Except Failure γ} (h : Agrees r r') (c : γ) :
    r = .ok c ↔ r' = .ok c := by
  cases h with
  | same _ => exact Iff.rfl
  | failed _ _ => exact iff_of_false nofun nofun

/-- Of two steps that do not depend on each other either may be first. -/
lemma agrees_bind_comm {f : α → β → Except Failure γ} {g : β → α → Except Failure γ}
    (h : ∀ a b, x = .ok a → y = .ok b → Agrees (f a b) (g b a)) :
    Agrees (x >>= fun a => y >>= fun b => f a b) (y >>= fun b => x >>= fun a => g b a) := by
  match x, y with
  | .error failure, .error failure' => exact .failed failure failure'
  | .error _, .ok _ => exact .same _
  | .ok _, .error _ => exact .same _
  | .ok a, .ok b => exact h a b rfl rfl

end Agreement

namespace Chain

variable {chain : Chain} {a b c d x : Block} {number : UInt64} {steps : Nat}

/-! ## Walks that meet -/

/-- A walk to a height on the way to a block gets there. -/
lemma Leads.exists_ancestorAt? (h : chain.Leads b c) (hle : c.number ≤ number)
    (hle' : number ≤ b.number) :
    ∃ x, chain.ancestorAt? b number = .ok (some x) ∧ x.number = number ∧ chain.Leads b x ∧
      chain.Leads x c := by
  induction h using Relation.ReflTransGen.head_induction_on with
  | refl =>
    have heq : number = c.number := UInt64.le_antisymm hle' hle
    subst heq
    exact ⟨c, ancestorAt?_self chain c, rfl, .refl _ _, .refl _ _⟩
  | @head b p hlink hrest ih =>
    by_cases heq : number = b.number
    · subst heq
      exact ⟨b, ancestorAt?_self chain b, rfl, .refl _ _, .head hlink hrest⟩
    · have hlt : number < b.number := UInt64.lt_of_le_of_ne hle' heq
      have hbelow : number ≤ p.number := by
        have hnumber := hlink.2
        rw [UInt64.lt_iff_toNat_lt] at hlt
        rw [UInt64.le_iff_toNat_le]
        omega
      obtain ⟨x, hx, hnumber, hpx, hxc⟩ := ih hbelow
      refine ⟨x, ?_, hnumber, .head hlink hpx, hxc⟩
      rw [ancestorAt?_eq_bind hlt, parent?_eq_some_iff_links.2 hlink]
      exact hx

/-- A block that leads below another one of its height has a parent on the way. -/
lemma Leads.exists_links (h : chain.Leads a c) (hne : c ≠ a) :
    ∃ p, chain.Links a p ∧ chain.Leads p c := by
  obtain heq | hlink := Relation.ReflTransGen.cases_head h
  · exact absurd heq.symm hne
  · exact hlink

/-- Side by side, two walks to one block meet no lower than there. -/
lemma exists_meet (hf : chain.Faithful) (ha : chain.Stored a) (hb : chain.Stored b)
    (hnumber : a.number = b.number) (hsteps : a.number.toNat = steps) (hac : chain.Leads a c)
    (hbc : chain.Leads b c) :
    ∃ m, chain.meet steps a b = .ok (some m) ∧ chain.Leads m c := by
  induction steps generalizing a b with
  | zero =>
    -- at height zero there is nothing below, so both stand where they lead to
    have hzero (d : Block) (hd : d.number = a.number) : d.number ≤ c.number := by
      rw [UInt64.le_iff_toNat_le, hd, hsteps]
      exact Nat.zero_le _
    obtain rfl := hac.eq_of_number_le (hzero a rfl)
    obtain rfl := hbc.eq_of_number_le (hzero b hnumber.symm)
    exact ⟨_, meet_zero_eq_some_iff.2 ⟨rfl, rfl⟩, .refl _ _⟩
  | succ steps ih =>
    by_cases hsame : a.hash = b.hash
    · exact ⟨a, meet_succ_eq_some_iff.2 (.inl ⟨hsame, rfl⟩), hac⟩
    · have hca : c ≠ a := by
        rintro rfl
        exact hsame (congrArg Block.hash (hbc.eq_of_number_le (UInt64.le_of_eq hnumber.symm)))
      have hcb : c ≠ b := by
        rintro rfl
        exact hsame (congrArg Block.hash (hac.eq_of_number_le (UInt64.le_of_eq hnumber))).symm
      obtain ⟨p, hp, hpc⟩ := hac.exists_links hca
      obtain ⟨q, hq, hqc⟩ := hbc.exists_links hcb
      have hnumber' : p.number = q.number := by
        have hp := hp.2
        have hq := hq.2
        rw [← hnumber] at hq
        rw [← UInt64.toNat_inj]
        omega
      have hsteps' : p.number.toNat = steps := by
        have hp := hp.2
        omega
      obtain ⟨m, hm, hmc⟩ := ih (hf.stored hp.1) (hf.stored hq.1) hnumber' hsteps' hpc hqc
      exact ⟨m, meet_succ_eq_some_iff.2 (.inr ⟨hsame, p, q, parent?_eq_some_iff_links.2 hp,
        parent?_eq_some_iff_links.2 hq, hm⟩), hmc⟩

/-- The smaller of two heights is one of them. -/
lemma min_number_cases (a b : Block) :
    min a.number b.number = a.number ∧ a.number ≤ b.number ∨
      min a.number b.number = b.number ∧ b.number ≤ a.number := by
  have hmin : min a.number b.number = if a.number ≤ b.number then a.number else b.number := rfl
  rw [hmin]
  split_ifs with hle
  · exact .inl ⟨rfl, hle⟩
  · exact .inr ⟨rfl, UInt64.le_of_lt (UInt64.not_le.1 hle)⟩

/-- Where there is a common ancestor, one is found, and no common ancestor is above it. -/
lemma exists_commonAncestor? (hf : chain.Faithful) (ha : chain.Stored a) (hb : chain.Stored b)
    (hac : chain.Leads a c) (hbc : chain.Leads b c) :
    ∃ m, chain.commonAncestor? a b = .ok (some m) ∧ chain.Leads m c := by
  have hle : c.number ≤ min a.number b.number ∧ min a.number b.number ≤ a.number ∧
      min a.number b.number ≤ b.number := by
    obtain ⟨hmin, hle⟩ | ⟨hmin, hle⟩ := min_number_cases a b <;> rw [hmin]
    · exact ⟨hac.number_le, UInt64.le_refl _, hle⟩
    · exact ⟨hbc.number_le, hle, UInt64.le_refl _⟩
  obtain ⟨hc, hlea, hleb⟩ := hle
  obtain ⟨x, hx, hxnumber, hax, hxc⟩ := hac.exists_ancestorAt? hc hlea
  obtain ⟨y, hy, hynumber, hby, hyc⟩ := hbc.exists_ancestorAt? hc hleb
  obtain ⟨m, hm, hmc⟩ := exists_meet hf (hax.stored hf ha) (hby.stored hf hb)
    (hxnumber.trans hynumber.symm) (congrArg UInt64.toNat hxnumber) hxc hyc
  exact ⟨m, commonAncestor?_eq_some_iff.2 ⟨x, y, hx, hy, hm⟩, hmc⟩

/-! ## The greatest -/

/-- A stored block that is an ancestor of both, and above all others that are. -/
structure GreatestCommon (chain : Chain) (a b c : Block) : Prop where
  stored : chain.Stored c
  left : chain.isAncestor? c a = .ok (some true)
  right : chain.isAncestor? c b = .ok (some true)
  greatest : ∀ x, chain.Stored x → chain.isAncestor? x a = .ok (some true) →
    chain.isAncestor? x b = .ok (some true) → x ≠ c → x.number < c.number

/-- What is found is the greatest common ancestor, and where there is one it is found. -/
theorem commonAncestor?_eq_some_iff_greatest (hf : chain.Faithful) (ha : chain.Stored a)
    (hb : chain.Stored b) :
    chain.commonAncestor? a b = .ok (some c) ↔ chain.GreatestCommon a b c := by
  have hbelow {m x : Block} (hleads : chain.Leads m x) (hne : x ≠ m) : x.number < m.number :=
    UInt64.not_le.1 fun hle => hne (hleads.eq_of_number_le hle)
  constructor
  · intro h
    obtain ⟨hc, hac, hbc⟩ := commonAncestor?_descends hf ha hb h
    refine ⟨hc, (isAncestor?_eq_true_iff hf hc ha).2 hac,
      (isAncestor?_eq_true_iff hf hc hb).2 hbc, fun x hx hxa hxb hne => ?_⟩
    rw [isAncestor?_eq_true_iff_leads hf hx ha] at hxa
    rw [isAncestor?_eq_true_iff_leads hf hx hb] at hxb
    obtain ⟨m, hm, hmx⟩ := exists_commonAncestor? hf ha hb hxa hxb
    cases h.symm.trans hm
    exact hbelow hmx hne
  · rintro ⟨hc, hca, hcb, hgreatest⟩
    rw [isAncestor?_eq_true_iff_leads hf hc ha] at hca
    rw [isAncestor?_eq_true_iff_leads hf hc hb] at hcb
    obtain ⟨m, hm, hmc⟩ := exists_commonAncestor? hf ha hb hca hcb
    obtain ⟨hmstored, ham, hbm⟩ := commonAncestor?_descends hf ha hb hm
    -- another block than `c` would be below it, but it leads there
    by_cases heq : m = c
    · rw [hm, heq]
    · have hlt := hgreatest m hmstored ((isAncestor?_eq_true_iff hf hmstored ha).2 ham)
        ((isAncestor?_eq_true_iff hf hmstored hb).2 hbm) heq
      exact absurd hmc.number_le (UInt64.not_le.2 hlt)

/-- An ancestor is what it has in common with its descendant. -/
lemma commonAncestor?_of_isAncestor? (hf : chain.Faithful) (ha : chain.Stored a)
    (hb : chain.Stored b) (h : chain.Leads b a) : chain.commonAncestor? a b = .ok (some a) := by
  obtain ⟨m, hm, hma⟩ := exists_commonAncestor? hf ha hb (.refl _ _) h
  obtain ⟨-, ham, -⟩ := commonAncestor?_descends hf ha hb hm
  rw [hm, hma.antisymm (leads_iff_descends.2 ham)]

/-! ## Either order -/

lemma meet_agrees (hf : chain.Faithful) (ha : chain.Stored a) (hb : chain.Stored b) :
    Agrees (chain.meet steps a b) (chain.meet steps b a) := by
  by_cases hsame : a.hash = b.hash
  · rw [ha.eq_of_hash_eq hb hsame]
    exact .same _
  induction steps generalizing a b with
  | zero =>
    rw [meet, meet, if_neg hsame, if_neg fun h => hsame h.symm]
    exact .same _
  | succ steps ih =>
    rw [meet, meet, if_neg hsame, if_neg fun h => hsame h.symm]
    refine agrees_bind_comm fun p q hp hq => ?_
    cases p with
    | none => cases q <;> exact .same _
    | some p =>
      cases q with
      | none => exact .same _
      | some q =>
        have hpstored := hf.stored (parent?_eq_some_iff.1 hp).1
        have hqstored := hf.stored (parent?_eq_some_iff.1 hq).1
        by_cases hmet : p.hash = q.hash
        · rw [hpstored.eq_of_hash_eq hqstored hmet]
          exact .same _
        · exact ih hpstored hqstored hmet

lemma min_number_comm (a b : Block) : min a.number b.number = min b.number a.number := by
  obtain ⟨hmin, hle⟩ | ⟨hmin, hle⟩ := min_number_cases a b <;>
    obtain ⟨hmin', hle'⟩ | ⟨hmin', hle'⟩ := min_number_cases b a <;> rw [hmin, hmin']
  · exact UInt64.le_antisymm hle hle'
  · exact UInt64.le_antisymm hle hle'

/-- Whichever block is named first, the same is found, or nothing is. -/
theorem commonAncestor?_agrees (hf : chain.Faithful) (ha : chain.Stored a) (hb : chain.Stored b) :
    Agrees (chain.commonAncestor? a b) (chain.commonAncestor? b a) := by
  unfold commonAncestor?
  rw [min_number_comm b a]
  refine agrees_bind_comm fun x y hx hy => ?_
  cases x with
  | none => cases y <;> exact .same _
  | some x =>
    cases y with
    | none => exact .same _
    | some y =>
      exact meet_agrees hf ((Descends.of_ancestorAt? hx).stored hf ha)
        ((Descends.of_ancestorAt? hy).stored hf hb)

end Chain

namespace Database

variable {db : Database} {a b : Block}

/-! ## Databases -/

/-- In every database without a block at the greatest height, what is found as the common ancestor
of two stored blocks is the greatest one.  Without one, nothing is found or a fault is reported.
What is found does not depend on the order of the blocks, and it is the first block if the second
one descends from it. -/
theorem commonAncestor?_is_greatest (hdb : db.Built) (hroom : db.chain.HasRoom)
    (ha : db.chain.Stored a) (hb : db.chain.Stored b) :
    (∀ c, db.chain.commonAncestor? a b = .ok (some c) ↔ db.chain.GreatestCommon a b c) ∧
      ((∀ c, ¬ db.chain.GreatestCommon a b c) →
        db.chain.commonAncestor? a b = .ok none ∨
          ∃ fault, db.chain.commonAncestor? a b = .error (.fault fault)) ∧
      (∀ found, db.chain.commonAncestor? a b = .ok found ↔
        db.chain.commonAncestor? b a = .ok found) ∧
      (db.chain.isAncestor? a b = .ok (some true) →
        db.chain.commonAncestor? a b = .ok (some a)) := by
  have hf := hdb.faithful
  have hgreatest (c : Block) := Chain.commonAncestor?_eq_some_iff_greatest (c := c) hf ha hb
  refine ⟨hgreatest, fun hnone => ?_, (Chain.commonAncestor?_agrees hf ha hb).eq_ok_iff,
    fun hab => ?_⟩
  · have hoverflow := (hroom.spares (hdb.readable _)).commonAncestor? (a := a) (b := b)
      trivial trivial
    match hfound : db.chain.commonAncestor? a b with
    | .ok none => exact .inl rfl
    | .ok (some c) => exact absurd ((hgreatest c).1 hfound) (hnone c)
    | .error (.fault fault) => exact .inr ⟨fault, rfl⟩
    | .error .overflow => exact absurd hfound hoverflow
  · rw [Chain.isAncestor?_eq_true_iff_leads hf ha hb] at hab
    exact Chain.commonAncestor?_of_isAncestor? hf ha hb hab

/-- The two blocks on the first one have only that in common. -/
lemma greatestCommon_forest :
    forest.chain.GreatestCommon Engine.secondBlock Engine.rivalBlock Engine.firstBlock := by
  have hf := built_forest.faithful
  have hfirst : forest.chain.Stored Engine.firstBlock := stored_forest (by decide)
  have hsecond : forest.chain.Stored Engine.secondBlock := stored_forest (by decide)
  have hrival : forest.chain.Stored Engine.rivalBlock := stored_forest (by decide)
  have hlink : forest.chain.Links Engine.rivalBlock Engine.firstBlock := ⟨hfirst, rfl⟩
  refine ⟨hfirst,
    (Chain.isAncestor?_eq_true_iff_leads hf hfirst hsecond).2 (.head links_secondBlock (.refl _ _)),
    (Chain.isAncestor?_eq_true_iff_leads hf hfirst hrival).2 (.head hlink (.refl _ _)),
    fun x hx hsx hrx hne => ?_⟩
  have hapart : forest.chain.isAncestor? Engine.secondBlock Engine.rivalBlock = .ok (some false) :=
    rfl
  have hsecond_ne : x ≠ Engine.secondBlock := by
    rintro rfl
    cases hapart.symm.trans hrx
  obtain ⟨p, hp, hpx⟩ :=
    ((Chain.isAncestor?_eq_true_iff_leads hf hx hsecond).1 hsx).exists_links hsecond_ne
  cases links_secondBlock.unique hp
  exact absurd (hpx.eq_of_number_le (UInt64.le_iff_toNat_le.2 (Nat.zero_le _))) hne

theorem commonAncestor?_is_greatest_forest :
    forest.Built ∧ forest.chain.HasRoom ∧ forest.chain.Stored Engine.secondBlock ∧
      forest.chain.Stored Engine.rivalBlock ∧
      forest.chain.commonAncestor? Engine.secondBlock Engine.rivalBlock =
        .ok (some Engine.firstBlock) ∧
      forest.chain.commonAncestor? Engine.rivalBlock Engine.secondBlock =
        .ok (some Engine.firstBlock) := by
  have hsecond : forest.chain.Stored Engine.secondBlock := stored_forest (by decide)
  have hrival : forest.chain.Stored Engine.rivalBlock := stored_forest (by decide)
  obtain ⟨hgreatest, -, hcomm, -⟩ :=
    commonAncestor?_is_greatest built_forest hasRoom_forest hsecond hrival
  have hfound := (hgreatest _).2 greatestCommon_forest
  exact ⟨built_forest, hasRoom_forest, hsecond, hrival, hfound, (hcomm _).1 hfound⟩

end Database

end ChainHead
