import ChainHead.Proofs.Database

/-!
# What a database remembers

A database goes through writes of every kind and is cleared now and then.  Its history is the list
of these calls, the newest first, and what it holds can be read off the history alone: under a hash
stands what was last stored there since everything was last removed (`Database.newest?`), and the
pointers are those that were last written since then (`Database.written?`).

The trees hold nothing but the texts of these values (`Database.Mirrors`).  Each call keeps this up
(`Database.Mirrors.perform`), so that none of them, and no reading, ever meets a text that does not
decode (`Database.exists_remembers`).
-/

namespace ChainHead

namespace Database

/-! ## Histories -/

/-- A call that writes to a database. -/
inductive Call where
  /-- A block is stored. -/
  | insertBlock (b : Block)
  /-- The record of a rejected block is stored. -/
  | insertBadBlock (b : BadBlock)
  /-- The pointers are written. -/
  | setHeads (h : Heads)
  /-- The first block of the chain is stored, and without pointers they are set to it. -/
  | initGenesis (b : Block)
  /-- Everything is removed. -/
  | clear

/-- The block that a call stores under a hash. -/
def Call.block? (hash : Hash) : Call → Option Block
  | .insertBlock b | .initGenesis b => if hash = b.hash then some b else none
  | _ => none

/-- The record of a rejected block that a call stores under a hash. -/
def Call.badBlock? (hash : Hash) : Call → Option BadBlock
  | .insertBadBlock b => if hash = b.hash then some b else none
  | _ => none

/-- What was last stored, as `stored?` tells it of each call, since everything was last removed. -/
def newest? {α : Type} (stored? : Call → Option α) : List Call → Option α
  | [] => none
  | .clear :: _ => none
  | call :: earlier => (stored? call).or (newest? stored? earlier)

/-- The pointers that were last written since everything was last removed.  A first block writes
them only where there are none yet. -/
def written? : List Call → Option Heads
  | [] => none
  | .clear :: _ => none
  | .setHeads h :: _ => some h
  | .initGenesis b :: earlier => (written? earlier).or (some (.ofGenesis b))
  | _ :: earlier => written? earlier

/-- The database after a call. -/
def perform (db : Database) : Call → Except Fault Database
  | .insertBlock b => .ok (db.insertBlock b)
  | .insertBadBlock b => .ok (db.insertBadBlock b)
  | .setHeads h => .ok (db.setHeads h)
  | .initGenesis b => (db.initGenesis b).map Prod.snd
  | .clear => .ok db.clear

/-- The database after all calls of a history. -/
def after : List Call → Except Fault Database
  | [] => .ok empty
  | call :: earlier => do (← after earlier).perform call

variable {db : Database} {history : List Call}

/-- What is true of all that is ever stored is true of what was stored last. -/
lemma newest?_of_forall {α : Type} {stored? : Call → Option α} (P : α → Prop)
    (h : ∀ call a, stored? call = some a → P a) {a : α} (ha : newest? stored? history = some a) :
    P a := by
  induction history with
  | nil => cases ha
  | cons call earlier ih =>
    cases call with
    | clear => cases ha
    | _ =>
      rw [newest?, Option.or_eq_some_iff] at ha
      · exact ha.elim (h _ a) fun hearlier => ih hearlier.2
      · nofun

lemma hash_eq_of_newest_block? {hash : Hash} {b : Block}
    (h : newest? (Call.block? hash) history = some b) : b.hash = hash := by
  refine newest?_of_forall (fun b => b.hash = hash) (fun call b hb => ?_) h
  cases call <;> simp only [Call.block?, reduceCtorEq] at hb
  all_goals
    split_ifs at hb with hhash
    cases hb
    exact hhash.symm

lemma hash_eq_of_newest_badBlock? {hash : Hash} {b : BadBlock}
    (h : newest? (Call.badBlock? hash) history = some b) : b.hash = hash := by
  refine newest?_of_forall (fun b => b.hash = hash) (fun call b hb => ?_) h
  cases call <;> simp only [Call.badBlock?, reduceCtorEq] at hb
  split_ifs at hb with hhash
  cases hb
  exact hhash.symm

/-! ## One call -/

/-- The trees hold the texts of what the history says, and nothing else. -/
structure Mirrors (history : List Call) (db : Database) : Prop where
  block? : ∀ hash, db.block? hash = .ok (newest? (Call.block? hash) history)
  badBlock? : ∀ hash, db.badBlock? hash = .ok (newest? (Call.badBlock? hash) history)
  hasHeads : db.HasHeads (written? history)

namespace Mirrors

lemma empty : Mirrors [] empty :=
  ⟨fun _ => rfl, fun _ => rfl, fun _ => rfl⟩

lemma insertBlock (h : Mirrors history db) (b : Block) :
    Mirrors (.insertBlock b :: history) (db.insertBlock b) := by
  refine ⟨fun hash => ?_, fun hash => ?_, h.hasHeads⟩
  · rw [block?_insertBlock, h.block?, newest?, Call.block?]
    · split_ifs <;> rfl
    · nofun
  · exact h.badBlock? hash

lemma insertBadBlock (h : Mirrors history db) (b : BadBlock) :
    Mirrors (.insertBadBlock b :: history) (db.insertBadBlock b) := by
  refine ⟨fun hash => ?_, fun hash => ?_, h.hasHeads⟩
  · exact h.block? hash
  · rw [badBlock?_insertBadBlock, h.badBlock?, newest?, Call.badBlock?]
    · split_ifs <;> rfl
    · nofun

lemma setHeads (h : Mirrors history db) (heads : Heads) :
    Mirrors (.setHeads heads :: history) (db.setHeads heads) :=
  ⟨h.block?, h.badBlock?, hasHeads_setHeads db heads⟩

/-- The pointers that a start finds or sets are those that it gives. -/
lemma initGenesis (h : Mirrors history db) (b : Block) :
    ∃ db', db.initGenesis b = .ok ((written? history).getD (.ofGenesis b), db') ∧
      Mirrors (.initGenesis b :: history) db' ∧
      ((written? history).isSome → db'.pointers = db.pointers) := by
  have hinserted := h.insertBlock b
  cases hwritten : written? history with
  | none =>
    have hheads : db.heads? = .ok none := hwritten ▸ h.hasHeads.heads?
    refine ⟨_, initGenesis_of_no_heads hheads b, ⟨hinserted.block?, hinserted.badBlock?, ?_⟩, nofun⟩
    rw [written?, hwritten]
    exact hasHeads_setHeads _ _
  | some heads =>
    have hold : db.HasHeads (some heads) := hwritten ▸ h.hasHeads
    refine ⟨_, initGenesis_of_heads? hold.heads? b, ⟨hinserted.block?, hinserted.badBlock?, ?_⟩,
      fun _ => rfl⟩
    rw [written?, hwritten]
    exact hold

/-- No call fails, and what it writes is what the history then says. -/
theorem perform (h : Mirrors history db) (call : Call) :
    ∃ db', db.perform call = .ok db' ∧ Mirrors (call :: history) db' := by
  cases call with
  | insertBlock b => exact ⟨_, rfl, h.insertBlock b⟩
  | insertBadBlock b => exact ⟨_, rfl, h.insertBadBlock b⟩
  | setHeads heads => exact ⟨_, rfl, h.setHeads heads⟩
  | clear =>
    have hempty := Mirrors.empty
    exact ⟨_, rfl, hempty.block?, hempty.badBlock?, hempty.hasHeads⟩
  | initGenesis b =>
    obtain ⟨db', hinit, hmirrors, -⟩ := h.initGenesis b
    exact ⟨db', by rw [Database.perform, hinit]; rfl, hmirrors⟩

end Mirrors

theorem exists_mirrors (history : List Call) :
    ∃ db, after history = .ok db ∧ Mirrors history db := by
  induction history with
  | nil => exact ⟨_, rfl, .empty⟩
  | cons call earlier ih =>
    obtain ⟨db, hafter, hmirrors⟩ := ih
    obtain ⟨db', hperform, hmirrors'⟩ := hmirrors.perform call
    exact ⟨db', bind_eq_ok_iff.2 ⟨db, hafter, hperform⟩, hmirrors'⟩

/-! ## What callers can rely on -/

/-- The database answers every question as the history does. -/
structure Remembers (history : List Call) (db : Database) : Prop where
  /-- Under a hash is found the block that was last stored there, and it has that hash. -/
  block? : ∀ hash, db.block? hash = .ok (newest? (Call.block? hash) history)
  hash_of_block? : ∀ hash b, db.block? hash = .ok (some b) → b.hash = hash
  /-- So is the record of the rejected block. -/
  badBlock? : ∀ hash, db.badBlock? hash = .ok (newest? (Call.badBlock? hash) history)
  hash_of_badBlock? : ∀ hash b, db.badBlock? hash = .ok (some b) → b.hash = hash
  /-- The pointers are those that were last written. -/
  heads? : db.heads? = .ok (written? history)
  /-- Nothing stands under a pointer that was unset in them, or where none were written. -/
  absent_iff : ∀ pointer, db.pointers.get? pointer = none ↔
    ∀ h, written? history = some h → h.block? pointer = none
  /-- A start finds the pointers and leaves them as they are, or sets them. -/
  initGenesis : ∀ b, ∃ db', db.initGenesis b = .ok ((written? history).getD (.ofGenesis b), db') ∧
    db'.heads? = .ok (some ((written? history).getD (.ofGenesis b))) ∧
    ((written? history).isSome → db'.pointers = db.pointers)

lemma Mirrors.remembers (h : Mirrors history db) : Remembers history db where
  block? := h.block?
  hash_of_block? hash b hb := by
    rw [h.block?] at hb
    exact hash_eq_of_newest_block? (Except.ok.inj hb)
  badBlock? := h.badBlock?
  hash_of_badBlock? hash b hb := by
    rw [h.badBlock?] at hb
    exact hash_eq_of_newest_badBlock? (Except.ok.inj hb)
  heads? := h.hasHeads.heads?
  absent_iff pointer := by
    rw [h.hasHeads pointer, Option.map_eq_none_iff, Option.bind_eq_none_iff]
  initGenesis b := by
    obtain ⟨db', hinit, hmirrors, hsame⟩ := h.initGenesis b
    refine ⟨db', hinit, ?_, hsame⟩
    rw [hmirrors.hasHeads.heads?, written?]
    cases written? history <;> rfl

/-- Whatever is written to a database, in whichever order, no call fails, and afterwards it answers
every question as the history of the calls does. -/
theorem exists_remembers (history : List Call) :
    ∃ db, after history = .ok db ∧ db.Remembers history := by
  obtain ⟨db, hafter, hmirrors⟩ := exists_mirrors history
  exact ⟨db, hafter, hmirrors.remembers⟩

end Database

end ChainHead
