import Mathlib.Logic.Relation
import ChainHead.Proofs.Engine.Overflow
import ChainHead.Proofs.Engine.Syncing
import ChainHead.Proofs.History
import ChainHead.Proofs.Lasting

/-!
# Parent links

A block links to what is found under its parent hash, if that stands exactly one height below
(`Chain.Links`).  Each block has at most one link, so what following links leads to lies in one line
(`Chain.Leads`).  This is said without the walks, and the walks decide it.

To go down to a height ends in one of three ways (`Chain.Stops`): it arrives, or it stops above that
height at a block whose parent is not stored, or at one whose parent stands at a wrong height
(`Chain.ancestorAt?_eq_iff`).  From this follows when the test for ancestors says yes, says no, is
left open and fails (`Chain.Decides`), and that the ancestors of a block are ordered
(`Chain.OrdersAncestry`).  `Database.isAncestor?_decides_descent` says so of all databases that any
calls lead to (`Database.built_of_after`), as long as no block stands at the greatest height.
-/

namespace ChainHead

namespace Chain

variable {chain : Chain} {a b d p q x y : Block} {number : UInt64} {failure : Failure}
  {result : Except Failure (Option Block)}

/-! ## Following links -/

/-- The block is found under the parent hash of the other, one height below it. -/
def Links (chain : Chain) (b p : Block) : Prop :=
  chain.block? b.parentHash = .ok (some p) ∧ p.number.toNat + 1 = b.number.toNat

/-- Following links from the one block reaches the other. -/
def Leads (chain : Chain) : Block → Block → Prop := Relation.ReflTransGen chain.Links

lemma Links.unique (hp : chain.Links b p) (hq : chain.Links b q) : p = q :=
  Option.some.inj (Except.ok.inj (hp.1.symm.trans hq.1))

namespace Leads

lemma refl (chain : Chain) (b : Block) : chain.Leads b b := Relation.ReflTransGen.refl

lemma head (hlink : chain.Links b p) (h : chain.Leads p x) : chain.Leads b x :=
  Relation.ReflTransGen.head hlink h

lemma number_le (h : chain.Leads d a) : a.number ≤ d.number := by
  rw [UInt64.le_iff_toNat_le]
  induction h with
  | refl => exact Nat.le_refl _
  | tail _ hlink ih =>
    have := hlink.2
    omega

/-- Each link goes down, so at one height nothing else is reached. -/
lemma eq_of_number_le (h : chain.Leads d a) (hnumber : d.number ≤ a.number) : a = d := by
  obtain heq | ⟨p, hlink, hrest⟩ := Relation.ReflTransGen.cases_head h
  · exact heq.symm
  · have hle := UInt64.le_iff_toNat_le.1 (number_le hrest)
    have hnumber := UInt64.le_iff_toNat_le.1 hnumber
    have := hlink.2
    omega

lemma antisymm (h : chain.Leads d a) (h' : chain.Leads a d) : a = d :=
  h.eq_of_number_le h'.number_le

lemma stored (h : chain.Leads d a) (hf : chain.Faithful) (hd : chain.Stored d) :
    chain.Stored a := by
  induction h with
  | refl => exact hd
  | tail _ hlink _ => exact hf.stored hlink.1

/-- Of two blocks that are reached from one, the lower is reached from the higher. -/
lemma leads_of_number_le (ha : chain.Leads d a) (hb : chain.Leads d b)
    (hle : a.number ≤ b.number) : chain.Leads b a := by
  have hunique : Relator.RightUnique chain.Links := fun _ _ _ => Links.unique
  obtain h | h := Relation.ReflTransGen.total_of_right_unique hunique hb ha
  · exact h
  · rw [eq_of_number_le h hle]
    exact refl chain a

end Leads

/-! ## Walks follow links -/

lemma parent?_eq_some_iff_links : chain.parent? b = .ok (some p) ↔ chain.Links b p :=
  parent?_eq_some_iff

lemma leads_iff_descends : chain.Leads d a ↔ chain.Descends d a := by
  constructor
  · intro h
    induction h with
    | refl => exact .refl _ _
    | tail _ hlink ih => exact ih.trans (.of_parent (parent?_eq_some_iff_links.2 hlink))
  · rintro ⟨steps, h⟩
    induction steps generalizing d with
    | zero =>
      cases h
      exact .refl _ _
    | succ steps ih =>
      obtain ⟨p, hp, h⟩ := descend_succ_eq_some_iff.1 h
      exact .head (parent?_eq_some_iff_links.1 hp) (ih h)

/-- Above the height a walk goes to the parent and on from there. -/
lemma ancestorAt?_eq_bind (hlt : number < b.number) :
    chain.ancestorAt? b number = chain.parent? b >>= fun
      | some p => chain.ancestorAt? p number
      | none => .ok none := by
  have hbelow := UInt64.lt_iff_toNat_lt.1 hlt
  have hsteps : b.number.toNat - number.toNat = b.number.toNat - number.toNat - 1 + 1 := by omega
  rw [ancestorAt?, if_neg (UInt64.not_lt.2 (UInt64.le_of_lt hlt)), hsteps, descend]
  cases hparent : chain.parent? b with
  | error failure => rfl
  | ok found =>
    cases found with
    | none => rfl
    | some p =>
      have hnumber := (parent?_eq_some_iff.1 hparent).2
      have hle : ¬ p.number < number := by
        rw [UInt64.lt_iff_toNat_lt]
        omega
      have hrest : b.number.toNat - number.toNat - 1 = p.number.toNat - number.toNat := by omega
      show chain.descend _ p = chain.ancestorAt? p number
      rw [ancestorAt?, if_neg hle, hrest]

lemma ancestorAt?_self (chain : Chain) (b : Block) :
    chain.ancestorAt? b b.number = .ok (some b) := by
  refine ancestorAt?_eq_some_iff.2 ⟨UInt64.le_refl _, ?_⟩
  rw [Nat.sub_self]
  rfl

/-- What lies on the way does not change where a walk ends. -/
lemma Leads.ancestorAt?_eq (h : chain.Leads b x) (hle : number ≤ x.number) :
    chain.ancestorAt? b number = chain.ancestorAt? x number := by
  induction h using Relation.ReflTransGen.head_induction_on with
  | refl => rfl
  | @head b p hlink hrest ih =>
    have hlt : number < b.number := by
      have hnumber := UInt64.le_iff_toNat_le.1 (number_le hrest)
      rw [UInt64.le_iff_toNat_le] at hle
      rw [UInt64.lt_iff_toNat_lt, ← hlink.2]
      omega
    rw [ancestorAt?_eq_bind hlt, parent?_eq_some_iff_links.2 hlink]
    exact ih

/-! ## Where walks end -/

/-- How following links from a block down to a height ends. -/
inductive Stops (chain : Chain) (b : Block) (number : UInt64) :
    Except Failure (Option Block) → Prop where
  /-- A block at the height is reached. -/
  | arrives {x : Block} (hleads : chain.Leads b x) (hnumber : x.number = number) :
      Stops chain b number (.ok (some x))
  /-- The parent of a block above the height is not stored. -/
  | gap {x : Block} (hleads : chain.Leads b x) (habove : number < x.number)
      (hmissing : chain.block? x.parentHash = .ok none) : Stops chain b number (.ok none)
  /-- The parent of a block above the height is stored at a wrong height. -/
  | broken {x p : Block} (hleads : chain.Leads b x) (habove : number < x.number)
      (hparent : chain.block? x.parentHash = .ok (some p))
      (hwrong : p.number.toNat + 1 ≠ x.number.toNat) :
      Stops chain b number (.error (.fault (.brokenLink x.hash x.number p.number)))

lemma Stops.of_links (hlink : chain.Links b p) (h : chain.Stops p number result) :
    chain.Stops b number result := by
  cases h with
  | arrives hleads hnumber => exact .arrives (.head hlink hleads) hnumber
  | gap hleads habove hmissing => exact .gap (.head hlink hleads) habove hmissing
  | broken hleads habove hparent hwrong =>
    exact .broken (.head hlink hleads) habove hparent hwrong

lemma number_ne_zero_of_lt (h : number < b.number) : b.number ≠ 0 := by
  intro hzero
  rw [hzero] at h
  exact absurd (UInt64.lt_iff_toNat_lt.1 h) (Nat.not_lt_zero _)

/-- A walk ends where following the links ends. -/
lemma ancestorAt?_stops (hread : chain.Readable) (hroom : chain.HasRoom)
    (hle : number ≤ b.number) : chain.Stops b number (chain.ancestorAt? b number) := by
  -- each link goes down by one, so the induction is on how far the block is above the height
  induction hsteps : b.number.toNat - number.toNat generalizing b with
  | zero =>
    have heq : b.number = number := by
      rw [UInt64.le_iff_toNat_le] at hle
      rw [← UInt64.toNat_inj]
      omega
    subst heq
    rw [ancestorAt?_self]
    exact .arrives (.refl _ _) rfl
  | succ steps ih =>
    have hlt : number < b.number := by
      rw [UInt64.lt_iff_toNat_lt]
      omega
    have hne := number_ne_zero_of_lt hlt
    rw [ancestorAt?_eq_bind hlt]
    match hfound : chain.block? b.parentHash with
    | .error failure => exact absurd (.inl ⟨_, hfound⟩) (hread failure)
    | .ok none =>
      have hparent : chain.parent? b = .ok none := by
        rw [parent?_eq_bind hne, hfound]
        rfl
      rw [hparent]
      exact .gap (.refl _ _) hlt hfound
    | .ok (some p) =>
      by_cases hnumber : p.number.toNat + 1 = b.number.toNat
      · have hlink : chain.Links b p := ⟨hfound, hnumber⟩
        have hbelow := UInt64.lt_iff_toNat_lt.1 hlt
        rw [parent?_eq_some_iff_links.2 hlink]
        exact .of_links hlink (ih (UInt64.le_iff_toNat_le.2 (by omega)) (by omega))
      · rw [parent?_of_wrong_height hne hfound (hroom _ p hfound) hnumber]
        exact .broken (.refl _ _) hlt hfound hnumber

/-- Going down to a height comes to exactly what following the links comes to. -/
theorem ancestorAt?_eq_iff (hread : chain.Readable) (hroom : chain.HasRoom)
    (hle : number ≤ b.number) :
    chain.ancestorAt? b number = result ↔ chain.Stops b number result := by
  constructor
  · rintro rfl
    exact ancestorAt?_stops hread hroom hle
  · intro h
    cases h with
    | @arrives x hleads hnumber =>
      subst hnumber
      rw [hleads.ancestorAt?_eq (UInt64.le_refl _), ancestorAt?_self]
    | @gap x hleads habove hmissing =>
      rw [hleads.ancestorAt?_eq (UInt64.le_of_lt habove), ancestorAt?_eq_bind habove,
        parent?_eq_bind (number_ne_zero_of_lt habove), hmissing]
      rfl
    | @broken x p hleads habove hparent hwrong =>
      rw [hleads.ancestorAt?_eq (UInt64.le_of_lt habove), ancestorAt?_eq_bind habove,
        parent?_of_wrong_height (number_ne_zero_of_lt habove) hparent (hroom _ p hparent) hwrong]
      rfl

/-! ## The test for ancestors -/

/-- What the test for ancestors says of two blocks, told by the links from the one down. -/
structure Decides (chain : Chain) (a d : Block) : Prop where
  yes_iff : chain.isAncestor? a d = .ok (some true) ↔ chain.Leads d a
  no_iff : chain.isAncestor? a d = .ok (some false) ↔
    d.number < a.number ∨ ∃ x, chain.Leads d x ∧ x.number = a.number ∧ x ≠ a
  open_iff : chain.isAncestor? a d = .ok none ↔
    a.number ≤ d.number ∧
      ∃ x, chain.Leads d x ∧ a.number < x.number ∧ chain.block? x.parentHash = .ok none
  fails_iff : ∀ failure, chain.isAncestor? a d = .error failure ↔
    a.number ≤ d.number ∧
      ∃ x p, chain.Leads d x ∧ a.number < x.number ∧
        chain.block? x.parentHash = .ok (some p) ∧ p.number.toNat + 1 ≠ x.number.toNat ∧
        failure = .fault (.brokenLink x.hash x.number p.number)

lemma isAncestor?_eq_true_iff_leads (hf : chain.Faithful) (ha : chain.Stored a)
    (hd : chain.Stored d) : chain.isAncestor? a d = .ok (some true) ↔ chain.Leads d a := by
  rw [isAncestor?_eq_true_iff hf ha hd, leads_iff_descends]

lemma isAncestor?_of_lt (hlt : d.number < a.number) :
    chain.isAncestor? a d = .ok (some false) := by
  rw [isAncestor?, if_pos hlt]
  rfl

/-- Otherwise it compares what stands at the height of the one. -/
lemma isAncestor?_of_le (hle : a.number ≤ d.number) :
    chain.isAncestor? a d =
      (chain.ancestorAt? d a.number).map (Option.map fun x => decide (x.hash = a.hash)) := by
  rw [isAncestor?, if_neg (UInt64.not_lt.2 hle)]
  cases chain.ancestorAt? d a.number <;> rfl

/-- Where the one block is above the other, nothing is followed. -/
lemma decides_of_lt (hlt : d.number < a.number) : chain.Decides a d := by
  have hno : chain.isAncestor? a d = .ok (some false) := isAncestor?_of_lt hlt
  have hnot : ¬ a.number ≤ d.number := UInt64.not_le.2 hlt
  refine ⟨?_, ?_, ?_, fun failure => ?_⟩ <;> rw [hno]
  · exact iff_of_false nofun fun h => hnot h.number_le
  · exact iff_of_true rfl (.inl hlt)
  · exact iff_of_false nofun fun h => hnot h.1
  · exact iff_of_false nofun fun h => hnot h.1

/-- Otherwise the test says where following the links ends. -/
lemma decides_of_le (hf : chain.Faithful) (hread : chain.Readable) (hroom : chain.HasRoom)
    (ha : chain.Stored a) (hd : chain.Stored d) (hle : a.number ≤ d.number) :
    chain.Decides a d where
  yes_iff := isAncestor?_eq_true_iff_leads hf ha hd
  no_iff := by
    rw [isAncestor?_of_le hle, map_eq_ok_iff]
    constructor
    · rintro ⟨_ | x, hx, hhash⟩
      · cases hhash
      · obtain ⟨hleads, hnumber⟩ | _ := (ancestorAt?_eq_iff hread hroom hle).1 hx
        refine .inr ⟨x, hleads, hnumber, ?_⟩
        rintro rfl
        simp at hhash
    · rintro (hlt | ⟨x, hleads, hnumber, hne⟩)
      · exact absurd hle (UInt64.not_le.2 hlt)
      · refine ⟨some x, (ancestorAt?_eq_iff hread hroom hle).2 (.arrives hleads hnumber), ?_⟩
        have hhash : x.hash ≠ a.hash := fun h => hne ((hleads.stored hf hd).eq_of_hash_eq ha h)
        rw [Option.map_some, decide_eq_false hhash]
  open_iff := by
    rw [isAncestor?_of_le hle, map_eq_ok_iff]
    constructor
    · rintro ⟨_ | x, hx, hnone⟩
      · cases (ancestorAt?_eq_iff hread hroom hle).1 hx with
        | gap hleads habove hmissing => exact ⟨hle, _, hleads, habove, hmissing⟩
      · cases hnone
    · rintro ⟨-, x, hleads, habove, hmissing⟩
      exact ⟨none, (ancestorAt?_eq_iff hread hroom hle).2 (.gap hleads habove hmissing), rfl⟩
  fails_iff failure := by
    rw [isAncestor?_of_le hle]
    constructor
    · intro h
      have hstops := ancestorAt?_stops hread hroom hle
      generalize chain.ancestorAt? d a.number = result at h hstops
      cases hstops with
      | arrives _ _ => cases h
      | gap _ _ _ => cases h
      | broken hleads habove hparent hwrong =>
        cases h
        exact ⟨hle, _, _, hleads, habove, hparent, hwrong, rfl⟩
    · rintro ⟨-, x, p, hleads, habove, hparent, hwrong, rfl⟩
      rw [(ancestorAt?_eq_iff hread hroom hle).2 (.broken hleads habove hparent hwrong)]
      rfl

/-- Between stored blocks the test for ancestors decides descent. -/
theorem decides_of_stored (hf : chain.Faithful) (hread : chain.Readable) (hroom : chain.HasRoom)
    (ha : chain.Stored a) (hd : chain.Stored d) : chain.Decides a d := by
  by_cases hlt : d.number < a.number
  · exact decides_of_lt hlt
  · exact decides_of_le hf hread hroom ha hd (UInt64.not_lt.1 hlt)

/-! ## The order of ancestors -/

/-- On stored blocks ancestry is an order, and the ancestors of one block are in line. -/
structure OrdersAncestry (chain : Chain) : Prop where
  refl : ∀ a, chain.Stored a → chain.isAncestor? a a = .ok (some true)
  antisymm : ∀ a b, chain.Stored a → chain.Stored b →
    chain.isAncestor? a b = .ok (some true) → chain.isAncestor? b a = .ok (some true) → a = b
  trans : ∀ a b d, chain.Stored a → chain.Stored b → chain.Stored d →
    chain.isAncestor? a b = .ok (some true) → chain.isAncestor? b d = .ok (some true) →
      chain.isAncestor? a d = .ok (some true)
  comparable : ∀ a b d, chain.Stored a → chain.Stored b → chain.Stored d →
    chain.isAncestor? a d = .ok (some true) → chain.isAncestor? b d = .ok (some true) →
      chain.isAncestor? a b = .ok (some true) ∨ chain.isAncestor? b a = .ok (some true)

theorem Faithful.ordersAncestry (hf : chain.Faithful) : chain.OrdersAncestry where
  refl a _ := isAncestor?_self chain a
  antisymm a b ha hb hab hba := by
    rw [isAncestor?_eq_true_iff_leads hf ha hb] at hab
    rw [isAncestor?_eq_true_iff_leads hf hb ha] at hba
    exact hab.antisymm hba
  trans _ _ _ ha hb hd := isAncestor?_trans hf ha hb hd
  comparable a b d ha hb hd had hbd := by
    rw [isAncestor?_eq_true_iff_leads hf ha hd] at had
    rw [isAncestor?_eq_true_iff_leads hf hb hd] at hbd
    rw [isAncestor?_eq_true_iff_leads hf ha hb, isAncestor?_eq_true_iff_leads hf hb ha]
    obtain hle | hle := UInt64.le_total a.number b.number
    · exact .inl (had.leads_of_number_le hbd hle)
    · exact .inr (hbd.leads_of_number_le had hle)

end Chain

namespace Database

variable {db : Database} {blocks : List Block} {b : Block}

/-! ## Databases -/

/-- What was written can be read. -/
lemma Built.exists_mirrors (hdb : db.Built) : ∃ history, Mirrors history db := by
  induction hdb with
  | empty => exact ⟨_, .empty⟩
  | insertBlock b _ ih => exact ⟨_, ih.choose_spec.insertBlock b⟩
  | insertBadBlock b _ ih => exact ⟨_, ih.choose_spec.insertBadBlock b⟩
  | setHeads h _ ih => exact ⟨_, ih.choose_spec.setHeads h⟩

/-- Whatever is called, the database comes of writing to the empty one. -/
theorem built_of_after {history : List Call} (h : after history = .ok db) : db.Built := by
  induction history generalizing db with
  | nil =>
    cases h
    exact .empty
  | cons call earlier ih =>
    obtain ⟨old, hafter, hperform⟩ := bind_eq_ok_iff.1 h
    have hold := ih hafter
    cases call with
    | insertBlock b =>
      cases hperform
      exact hold.insertBlock b
    | insertBadBlock b =>
      cases hperform
      exact hold.insertBadBlock b
    | setHeads heads =>
      cases hperform
      exact hold.setHeads heads
    | clear =>
      cases hperform
      exact .empty
    | initGenesis b =>
      obtain ⟨⟨heads, new⟩, hinit, rfl⟩ := map_eq_ok_iff.1 hperform
      obtain ⟨_ | found, -, hrest⟩ := bind_eq_ok_iff.1 hinit
      · cases hrest
        exact (hold.insertBlock b).setHeads _
      · cases hrest
        exact hold.insertBlock b

lemma Built.readable (hdb : db.Built) : db.chain.Readable := by
  obtain ⟨history, hmirrors⟩ := hdb.exists_mirrors
  rintro failure (⟨hash, hfail⟩ | ⟨hash, hfail⟩)
  · simp only [chain, hmirrors.block? hash] at hfail
    cases hfail
  · simp only [chain, hmirrors.badBlock? hash] at hfail
    cases hfail

/-- In every database without a block at the greatest height, the test for ancestors decides descent
between stored blocks, which therefore orders them. -/
theorem isAncestor?_decides_descent (hdb : db.Built) (hroom : db.chain.HasRoom) :
    (∀ a d, db.chain.Stored a → db.chain.Stored d → db.chain.Decides a d) ∧
      db.chain.OrdersAncestry :=
  ⟨fun _ _ => Chain.decides_of_stored hdb.faithful hdb.readable hroom,
    hdb.faithful.ordersAncestry⟩

/-! ## A forest -/

lemma Built.insertBlocks (hdb : db.Built) (blocks : List Block) : (db.insertBlocks blocks).Built :=
  blocks.foldlRecOn _ hdb fun _ hdb b _ => hdb.insertBlock b

/-- What is found was found before or is one of the blocks that were stored. -/
lemma block?_insertBlocks {hash : Hash} (h : (db.insertBlocks blocks).block? hash = .ok (some b)) :
    db.block? hash = .ok (some b) ∨ b ∈ blocks := by
  induction blocks generalizing db with
  | nil => exact .inl h
  | cons c blocks ih =>
    have hrest : ((db.insertBlock c).insertBlocks blocks).block? hash = .ok (some b) := h
    obtain hfound | hmem := ih hrest
    · rw [block?_insertBlock] at hfound
      split_ifs at hfound
      · cases hfound
        exact .inr List.mem_cons_self
      · exact .inl hfound
    · exact .inr (List.mem_cons_of_mem c hmem)

/-- Of blocks under different hashes each is stored. -/
lemma stored_insertBlocks (db : Database) (hnodup : (blocks.map Block.hash).Nodup)
    (hb : b ∈ blocks) : (db.insertBlocks blocks).chain.Stored b := by
  induction blocks generalizing db with
  | nil => cases hb
  | cons c blocks ih =>
    obtain ⟨hc, hnodup⟩ := List.nodup_cons.1 hnodup
    obtain rfl | hb := List.mem_cons.1 hb
    · rw [Chain.Stored, chain_block?_eq_some_iff]
      show ((db.insertBlock b).insertBlocks blocks).block? b.hash = _
      rw [block?_insertBlocks_of_ne, block?_insertBlock, if_pos rfl]
      exact fun other hother heq => hc (heq ▸ List.mem_map_of_mem hother)
    · exact ih (db.insertBlock c) hnodup hb

/-- A block whose parent is not stored. -/
def orphanBlock : Block := ⟨Engine.hashOf 6, 5, Engine.hashOf 7, 60⟩

/-- A block whose parent is stored two heights below. -/
def hangingBlock : Block := ⟨Engine.hashOf 8, 3, Engine.hashOf 2, 36⟩

/-- Two blocks on the first one, and two blocks that lead nowhere. -/
def forestBlocks : List Block :=
  [Engine.firstBlock, Engine.secondBlock, Engine.rivalBlock, orphanBlock, hangingBlock]

/-- The database with these blocks. -/
def forest : Database := empty.insertBlocks forestBlocks

lemma built_forest : forest.Built := .insertBlocks .empty _

lemma stored_forest (hb : b ∈ forestBlocks) : forest.chain.Stored b :=
  stored_insertBlocks empty (by decide) hb

lemma hasRoom_forest : forest.chain.HasRoom := by
  have hall : ∀ b ∈ forestBlocks, b.number.toNat + 1 < UInt64.size := by decide
  intro hash b hb
  obtain hnone | hmem := block?_insertBlocks (chain_block?_eq_some_iff.1 hb)
  · cases hnone
  · exact hall b hmem

lemma links_secondBlock : forest.chain.Links Engine.secondBlock Engine.firstBlock := by
  have hfirst : forest.chain.Stored Engine.firstBlock := stored_forest (by decide)
  exact ⟨hfirst, rfl⟩

lemma block?_orphanBlock_parent : forest.chain.block? orphanBlock.parentHash = .ok none := by
  have hmissing : forest.block? orphanBlock.parentHash = .ok none := by
    rw [forest, block?_insertBlocks_of_ne _ (by decide), block?_empty]
  simp only [chain, hmissing]
  rfl

theorem isAncestor?_decides_descent_forest :
    forest.Built ∧ forest.chain.HasRoom ∧
      forest.chain.isAncestor? Engine.firstBlock Engine.secondBlock = .ok (some true) ∧
      forest.chain.isAncestor? Engine.secondBlock Engine.rivalBlock = .ok (some false) ∧
      forest.chain.isAncestor? Engine.firstBlock orphanBlock = .ok none ∧
      forest.chain.isAncestor? Engine.firstBlock hangingBlock =
        .error (.fault (.brokenLink (Engine.hashOf 8) 3 1)) := by
  have hfirst : forest.chain.Stored Engine.firstBlock := stored_forest (by decide)
  have hsecond : forest.chain.Stored Engine.secondBlock := stored_forest (by decide)
  have hrival : forest.chain.Stored Engine.rivalBlock := stored_forest (by decide)
  have horphan : forest.chain.Stored orphanBlock := stored_forest (by decide)
  have hhanging : forest.chain.Stored hangingBlock := stored_forest (by decide)
  have hdecides := (isAncestor?_decides_descent built_forest hasRoom_forest).1
  refine ⟨built_forest, hasRoom_forest, ?_, ?_, ?_, ?_⟩
  · exact (hdecides _ _ hfirst hsecond).yes_iff.2 (.head links_secondBlock (.refl _ _))
  · exact (hdecides _ _ hsecond hrival).no_iff.2
      (.inr ⟨_, .refl _ _, rfl, by decide⟩)
  · exact (hdecides _ _ hfirst horphan).open_iff.2
      ⟨by decide, _, .refl _ _, by decide, block?_orphanBlock_parent⟩
  · exact ((hdecides _ _ hfirst hhanging).fails_iff _).2
      ⟨by decide, _, _, .refl _ _, by decide, hsecond, by decide, rfl⟩

end Database

end ChainHead
