import ChainHead.Proofs.Ancestry
import ChainHead.Proofs.Json.Records
import ChainHead.Store

/-!
# What a database holds

Seen through its look-ups, a database is a map from hashes to blocks beside three pointers.  A block
that was stored is found (`Database.block?_insertBlock`), and so is the record of a rejected one
(`Database.badBlock?_insertBadBlock`).  Pointers that were written are read back
(`Database.heads?_setHeads`), and no kind of writing touches what the others read.

A database that was built from the empty one by such writing (`Database.Built`) finds under a hash
only blocks of that hash, and it only grows by a block that replaces no other.  What a store says
about blocks is said by the database behind it (`Store.chain_growsTo`).
-/

namespace ChainHead

/-- The block that a pointer names, if it is set. -/
def Heads.block? (h : Heads) : Pointer → Option Block
  | .head => some h.head
  | .safe => h.safe
  | .finalized => h.finalized

namespace Database

variable {db : Database}

/-! ## Reading what was written -/

lemma decode_block (b : Block) : decode Block.form.read b.toJson.text = .ok b := by
  rw [decode, b.decode_text]

lemma decode_badBlock (b : BadBlock) : decode BadBlock.form.read b.toJson.text = .ok b := by
  rw [decode, b.decode_text]

/-- Under the key of a text that was stored is found what the text says. -/
lemma lookup_insert {α κ : Type} [DecidableEq κ] {read : Json.Reading α} {text : String} {a : α}
    (htext : decode read text = .ok a) (tree : Tree κ) (key other : κ) :
    lookup read (tree.insert key text) other =
      if other = key then .ok (some a) else lookup read tree other := by
  simp only [lookup, Assoc.get?_insert]
  by_cases hkey : other = key
  · simp only [if_pos hkey, htext]
    rfl
  · simp only [if_neg hkey]

lemma block?_empty (hash : Hash) : empty.block? hash = .ok none := rfl

lemma badBlock?_empty (hash : Hash) : empty.badBlock? hash = .ok none := rfl

theorem block?_insertBlock (db : Database) (b : Block) (hash : Hash) :
    (db.insertBlock b).block? hash = if hash = b.hash then .ok (some b) else db.block? hash :=
  lookup_insert (decode_block b) db.blocks b.hash hash

theorem badBlock?_insertBadBlock (db : Database) (b : BadBlock) (hash : Hash) :
    (db.insertBadBlock b).badBlock? hash =
      if hash = b.hash then .ok (some b) else db.badBlock? hash :=
  lookup_insert (decode_badBlock b) db.badBlocks b.hash hash

@[simp] lemma block?_setHeads (db : Database) (h : Heads) (hash : Hash) :
    (db.setHeads h).block? hash = db.block? hash := rfl

@[simp] lemma heads?_insertBlock (db : Database) (b : Block) :
    (db.insertBlock b).heads? = db.heads? := rfl

/-- What is found under a pointer that a batch has written. -/
lemma get?_change (m : Tree Pointer) (key other : Pointer) (value : Option String) :
    (m.change ⟨key, value⟩).get? other = if other = key then value else m.get? other := by
  cases value with
  | none => exact m.get?_erase key other
  | some text => exact m.get?_insert key other text

lemma lookup_pointer {tree : Tree Pointer} {key : Pointer} {b : Option Block}
    (h : tree.get? key = b.map fun b => b.toJson.text) :
    lookup Block.form.read tree key = .ok b := by
  cases b with
  | none => simp only [lookup, h, Option.map_none]
  | some b =>
    simp only [lookup, h, Option.map_some, decode_block]
    rfl

/-- Under each pointer stands the text of its block, and nothing where it is unset. -/
def HasHeads (db : Database) (h : Option Heads) : Prop :=
  ∀ pointer, db.pointers.get? pointer = (h.bind (·.block? pointer)).map fun b => b.toJson.text

/-- Such texts are read as the pointers that they were written for. -/
theorem HasHeads.heads? {h : Option Heads} (hdb : db.HasHeads h) : db.heads? = .ok h := by
  have hhead := lookup_pointer (hdb .head)
  have hsafe := lookup_pointer (hdb .safe)
  have hfinalized := lookup_pointer (hdb .finalized)
  unfold Database.heads?
  cases h with
  | none => exact bind_eq_ok_iff.2 ⟨_, hhead, rfl⟩
  | some h => exact bind_eq_ok_iff.2 ⟨_, hhead, bind_eq_ok_iff.2 ⟨_, hsafe, bind_eq_ok_iff.2
      ⟨_, hfinalized, rfl⟩⟩⟩

/-- The batch leaves nothing of the pointers that were there before. -/
lemma hasHeads_setHeads (db : Database) (h : Heads) : (db.setHeads h).HasHeads (some h) := by
  intro pointer
  cases pointer <;> simp [setHeads, headsBatch, Assoc.apply, get?_change, Heads.block?]

/-- Pointers that were written are read back, the unset ones as unset. -/
theorem heads?_setHeads (db : Database) (h : Heads) : (db.setHeads h).heads? = .ok (some h) :=
  (hasHeads_setHeads db h).heads?

/-! ## The first block -/

lemma initGenesis_of_heads? {h : Heads} (hheads : db.heads? = .ok (some h)) (b : Block) :
    db.initGenesis b = .ok (h, db.insertBlock b) := by
  unfold initGenesis
  exact bind_eq_ok_iff.2 ⟨_, (heads?_insertBlock db b).trans hheads, rfl⟩

lemma initGenesis_of_no_heads (hheads : db.heads? = .ok none) (b : Block) :
    db.initGenesis b = .ok (.ofGenesis b, (db.insertBlock b).setHeads (.ofGenesis b)) := by
  unfold initGenesis
  exact bind_eq_ok_iff.2 ⟨_, (heads?_insertBlock db b).trans hheads, rfl⟩

lemma initGenesis_empty (b : Block) :
    empty.initGenesis b = .ok (.ofGenesis b, (empty.insertBlock b).setHeads (.ofGenesis b)) :=
  initGenesis_of_no_heads rfl b

/-! ## Growth -/

lemma chain_block?_eq_some_iff {hash : Hash} {b : Block} :
    db.chain.block? hash = .ok (some b) ↔ db.block? hash = .ok (some b) := by
  show (db.block? hash).mapError Failure.fault = _ ↔ _
  cases db.block? hash with
  | error fault =>
    constructor <;>
      · intro h
        cases h
  | ok found => simp only [Except.mapError, Except.ok.injEq]

/-- The databases that come of writing to the empty one. -/
inductive Built : Database → Prop where
  | empty : Built empty
  | insertBlock {db : Database} (b : Block) : Built db → Built (db.insertBlock b)
  | insertBadBlock {db : Database} (b : BadBlock) : Built db → Built (db.insertBadBlock b)
  | setHeads {db : Database} (h : Heads) : Built db → Built (db.setHeads h)

/-- A database finds under a hash only what was stored under it. -/
theorem Built.faithful (hdb : db.Built) : db.chain.Faithful := by
  induction hdb with
  | empty =>
    intro hash b h
    rw [chain_block?_eq_some_iff, block?_empty] at h
    cases h
  | @insertBlock db c _ ih =>
    intro hash b h
    rw [chain_block?_eq_some_iff, block?_insertBlock] at h
    split_ifs at h with hc
    · cases h
      exact hc.symm
    · exact ih hash b (chain_block?_eq_some_iff.2 h)
  | insertBadBlock _ _ ih => exact ih
  | setHeads _ _ ih => exact ih

/-- A block that replaces no other: nothing but the block itself is found under its hash. -/
def Admits (db : Database) (b : Block) : Prop :=
  ∀ old, db.block? b.hash = .ok (some old) → old = b

lemma growsTo_insertBlock {b : Block} (hb : db.Admits b) :
    db.chain.GrowsTo (db.insertBlock b).chain := by
  intro hash c hc
  rw [chain_block?_eq_some_iff] at hc ⊢
  rw [block?_insertBlock]
  split_ifs with hhash
  · rw [hb c (hhash ▸ hc)]
  · exact hc

lemma admits_of_missing {b : Block} (hb : db.block? b.hash = .ok none) : db.Admits b := by
  intro old hold
  cases hb.symm.trans hold

/-- A stored block may be stored again. -/
lemma admits_of_stored {b : Block} (hb : db.chain.Stored b) : db.Admits b := by
  intro old hold
  rw [Chain.Stored, chain_block?_eq_some_iff, hold] at hb
  exact Option.some.inj (Except.ok.inj hb)

lemma stored_insertBlock (db : Database) (b : Block) : (db.insertBlock b).chain.Stored b := by
  rw [Chain.Stored, chain_block?_eq_some_iff, block?_insertBlock, if_pos rfl]

end Database

namespace Store

/-- The store invents no blocks: what it finds, the database finds. -/
theorem chain_growsTo (s : Store) : s.chain.GrowsTo s.database.chain := by
  intro hash b h
  simp only [chain] at h
  split_ifs at h
  exact h

/-- While the database can be read, the store finds every block that the database finds. -/
lemma chain_growsTo_of_readable {s : Store} (hread : s.faults.blocks = false) :
    s.database.chain.GrowsTo s.chain := by
  intro hash b h
  simp only [chain, hread, Bool.false_eq_true, if_false]
  exact h

lemma block?_of_missing {s : Store} {hash : Hash} (hread : s.faults.blocks = false)
    (h : s.database.block? hash = .ok none) : s.chain.block? hash = .ok none := by
  simp only [chain, hread, Database.chain, h]
  rfl

/-- A rejected block that a store with records does not find, the database does not find. -/
lemma badBlock?_of_chain {s : Store} {hash : Hash} (hrecords : s.recordsBadBlocks = true)
    (h : s.chain.badBlock? hash = .ok none) : s.database.badBlock? hash = .ok none := by
  simp only [chain, hrecords, Bool.not_true, Bool.false_eq_true, if_false] at h
  split_ifs at h
  match hfound : s.database.badBlock? hash with
  | .ok none => rfl
  | .ok (some bad) =>
    simp only [Database.chain, hfound] at h
    cases h
  | .error fault =>
    simp only [Database.chain, hfound] at h
    cases h

/-- A store that answers for one hash can be read. -/
lemma readable_of_block? {s : Store} {hash : Hash} {found : Option Block}
    (h : s.chain.block? hash = .ok found) : s.faults.blocks = false := by
  rw [← Bool.not_eq_true]
  intro hread
  simp only [chain, hread, if_true] at h
  cases h

/-- Pointers that the store reads are those in the database. -/
lemma database_heads?_of_heads? {s : Store} {h : Option Heads} (hread : s.heads? = .ok h) :
    s.database.heads? = .ok h := by
  unfold heads? at hread
  split_ifs at hread
  exact hread

end Store

end ChainHead
