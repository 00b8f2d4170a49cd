import ChainHead.Proofs.Settings.Merging

/-!
# Sources of settings

Every source of settings gives a tidy table: the file, the environment, the command line, and what
is built in.

A TOML document is kept in nodes while its tables are being built.  All changes of the nodes go
through `changeAt`, so it is enough that a change keeps each key single in the table that it is made
for.  Lists of tables count as lists.
-/

namespace ChainHead.Settings

/-- What is read as a value that is never a table is tidy. -/
lemma tidy_of_map {β : Type} {o : Option β} {f : β → Value × List Char} {v : Value}
    {rest : List Char} (h : o.map f = some (v, rest)) (hplain : ∀ b, ¬ (f b).1.IsTable) :
    v.Tidy := by
  obtain ⟨b, -, heq⟩ := Option.map_eq_some_iff.1 h
  have hb := hplain b
  rw [heq] at hb
  exact .plain hb

/-! ## Documents -/

namespace Toml

variable {entries root : Entries} {key : String} {path header : List String} {v : Value}
  {node : Node} {change : Change} {fuel : Nat}

/-- Each key stands once in a table that is being built, and in the tables in it, and the complete
values are tidy. -/
inductive Node.Tidy : Node → Prop where
  /-- A complete value. -/
  | value {v : Value} (h : v.Tidy) : Tidy (.value v)
  /-- A table. -/
  | table {origin : Origin} {entries : Entries} (nodup : (entries.map Prod.fst).Nodup)
      (below : ∀ key node, entries.lookup key = some node → Tidy node) :
      Tidy (.table origin entries)
  /-- A list of tables. -/
  | tables {elements : List Entries} : Tidy (.tables elements)

lemma tidy_table_iff {origin : Origin} :
    (Node.table origin entries).Tidy ↔ Distinct Node.Tidy entries := by
  constructor
  · intro h
    cases h with
    | table nodup below => exact ⟨nodup, below⟩
  · exact fun h => .table h.nodup h.below

lemma lookup_entriesToValue : (Node.toValue.entriesToValue entries).lookup key =
    (entries.lookup key).map Node.toValue := by
  induction entries with
  | nil => rfl
  | cons p rest ih =>
    obtain ⟨first, node⟩ := p
    rw [Node.toValue.entriesToValue, lookup_entry_cons, lookup_entry_cons, ih]
    split_ifs <;> rfl

lemma keys_entriesToValue :
    (Node.toValue.entriesToValue entries).map Prod.fst = entries.map Prod.fst := by
  induction entries with
  | nil => rfl
  | cons p rest ih => rw [Node.toValue.entriesToValue, List.map_cons, List.map_cons, ih]

lemma Node.Tidy.toValue (h : node.Tidy) : node.toValue.Tidy := by
  induction h with
  | value h => rwa [Node.toValue]
  | @table origin entries nodup below ih =>
    rw [Node.toValue]
    refine .table (keys_entriesToValue ▸ nodup) fun key v hv => ?_
    rw [lookup_entriesToValue] at hv
    obtain ⟨node, hnode, rfl⟩ := Option.map_eq_some_iff.1 hv
    exact ih key node hnode
  | tables =>
    rw [Node.toValue]
    exact .plain nofun

/-- A change keeps each key single. -/
def Change.Tidies (change : Change) : Prop :=
  ∀ ⦃origin entries origin' entries'⦄, change origin entries = some (origin', entries') →
    Distinct Node.Tidy entries → Distinct Node.Tidy entries'

/-- What is done at the end of a path keeps the tables on the way tidy too. -/
lemma Change.Tidies.changeAt (h : change.Tidies) (dotted : Bool) (path : List String) :
    Change.Tidies (changeAt dotted change path) := by
  induction path with
  | nil =>
    intro origin entries origin' entries' hchange hentries
    rw [Toml.changeAt] at hchange
    exact h hchange hentries
  | cons key path ih =>
    intro origin entries origin' entries' hchange hentries
    rw [Toml.changeAt] at hchange
    obtain ⟨node, hnode, heq⟩ := Option.map_eq_some_iff.1 hchange
    cases heq
    refine hentries.put ?_
    split at hnode
    · obtain ⟨⟨inner, below⟩, hbelow, rfl⟩ := Option.map_eq_some_iff.1 hnode
      exact tidy_table_iff.2 (ih hbelow .nil)
    · cases hnode
    · rename_i inner below hlookup
      split_ifs at hnode
      obtain ⟨⟨inner', below'⟩, hbelow, rfl⟩ := Option.map_eq_some_iff.1 hnode
      exact tidy_table_iff.2 (ih hbelow (tidy_table_iff.1 (hentries.below key _ hlookup)))
    · split at hnode
      · cases hnode
      · obtain ⟨_, -, rfl⟩ := Option.map_eq_some_iff.1 hnode
        exact .tables

lemma tidies_setValue (hv : v.Tidy) : Change.Tidies (setValue path key v) := by
  refine Change.Tidies.changeAt ?_ true path
  intro origin entries origin' entries' hchange hentries
  beta_reduce at hchange
  split_ifs at hchange with _ hkey
  cases hchange
  exact hentries.append (Option.not_isSome_iff_eq_none.1 hkey) (.value hv)

/-- The root of a document stays tidy when a change is made at the end of a path. -/
lemma tidy_root {root' : Entries} (h : change.Tidies) (hroot : Distinct Node.Tidy root)
    (hchange : (changeAt false change path .defined root).map Prod.snd = some root') :
    Distinct Node.Tidy root' := by
  obtain ⟨⟨origin, below⟩, hbelow, rfl⟩ := Option.map_eq_some_iff.1 hchange
  exact h.changeAt false path hbelow hroot

lemma tidy_addValue {root' : Entries} (hv : v.Tidy) (hroot : Distinct Node.Tidy root)
    (h : addValue header path key v root = some root') : Distinct Node.Tidy root' :=
  tidy_root (tidies_setValue hv) hroot h

lemma tidy_addTable {root' : Entries} (hroot : Distinct Node.Tidy root)
    (h : addTable path key root = some root') : Distinct Node.Tidy root' := by
  refine tidy_root ?_ hroot h
  intro origin entries origin' entries' hchange hentries
  beta_reduce at hchange
  split at hchange
  · rename_i hkey
    cases hchange
    exact hentries.append hkey (tidy_table_iff.2 .nil)
  · rename_i inner hkey
    cases hchange
    exact hentries.put (tidy_table_iff.2 (tidy_table_iff.1 (hentries.below key _ hkey)))
  · cases hchange

lemma tidy_addToList {root' : Entries} (hroot : Distinct Node.Tidy root)
    (h : addToList path key root = some root') : Distinct Node.Tidy root' := by
  refine tidy_root ?_ hroot h
  intro origin entries origin' entries' hchange hentries
  beta_reduce at hchange
  split at hchange
  · rename_i hkey
    cases hchange
    exact hentries.append hkey .tables
  · cases hchange
    exact hentries.put .tables
  · cases hchange

lemma tidy_addValues {pairs : List (List String × String × Value)} {root' : Entries}
    (hpairs : ∀ p ∈ pairs, p.2.2.Tidy) (hroot : Distinct Node.Tidy root)
    (h : pairs.foldlM (fun entries (path, key, v) => addValue [] path key v entries) root =
      some root') : Distinct Node.Tidy root' := by
  induction pairs generalizing root with
  | nil =>
    cases h
    exact hroot
  | cons p pairs ih =>
    rw [List.foldlM_cons] at h
    obtain ⟨next, hnext, hrest⟩ := Option.bind_eq_some_iff.1 h
    exact ih (fun q hq => hpairs q (List.mem_cons_of_mem p hq))
      (tidy_addValue (hpairs p List.mem_cons_self) hroot hnext) hrest

/-- The table between braces of tidy values is tidy. -/
lemma tidy_tableOf? {pairs : List (List String × String × Value)} (h : tableOf? pairs = some v)
    (hpairs : ∀ p ∈ pairs, p.2.2.Tidy) : v.Tidy := by
  obtain ⟨entries, hentries, hv⟩ := Option.bind_eq_some_iff.1 h
  cases hv
  exact (tidy_table_iff.2 (tidy_addValues hpairs .nil hentries)).toValue

/-! ### Texts -/

lemma tidy_signed? {word cs : List Char} {negative : Bool} (h : signed? word negative cs = some v) :
    v.Tidy := by
  unfold signed? at h
  split at h
  · split_ifs at h
    all_goals
      cases h
      exact .plain nofun
  · split_ifs at h
    cases h
    exact .plain nofun

lemma tidy_based? {base : Nat} {cs : List Char} (h : based? base cs = some v) : v.Tidy := by
  obtain ⟨n, -, hv⟩ := Option.bind_eq_some_iff.1 h
  split_ifs at hv
  cases hv
  exact .plain nofun

lemma tidy_number? {cs : List Char} (h : number? cs = some v) : v.Tidy := by
  unfold number? at h
  split at h
  · exact tidy_based? h
  · exact tidy_based? h
  · exact tidy_based? h
  · exact tidy_signed? h
  · exact tidy_signed? h
  · exact tidy_signed? h

lemma tidy_scalar? {cs : List Char} (h : scalar? cs = some v) : v.Tidy := by
  unfold scalar? at h
  split_ifs at h
  · cases h
    exact .plain nofun
  · cases h
    exact .plain nofun
  · cases h
    exact Value.tidy_table_iff.2 .nil
  · exact tidy_number? h

/-- What is read with so much fuel is tidy. -/
structure ReadsTidy (fuel : Nat) : Prop where
  /-- A value. -/
  value : ∀ ⦃cs v rest⦄, value? fuel cs = some (v, rest) → v.Tidy
  /-- Keys and values. -/
  pairs : ∀ ⦃cs pairs rest⦄, pairs? fuel cs = some (pairs, rest) → ∀ p ∈ pairs, p.2.2.Tidy
  /-- A key and its value. -/
  pair : ∀ ⦃cs p rest⦄, pair? fuel cs = some (p, rest) → p.2.2.Tidy

lemma ReadsTidy.value_succ (h : ReadsTidy fuel) {cs rest : List Char}
    (hread : value? (fuel + 1) cs = some (v, rest)) : v.Tidy := by
  rw [value?.eq_def] at hread
  dsimp only at hread
  split at hread
  · exact tidy_of_map hread fun _ => nofun
  · split at hread
    · rw [Option.bind_eq_bind, Option.bind_some] at hread
      obtain ⟨table, htable, heq⟩ := Option.bind_eq_some_iff.1 hread
      cases heq
      exact tidy_tableOf? htable nofun
    · obtain ⟨⟨pairs, rest⟩, hpairs, hread⟩ := Option.bind_eq_some_iff.1 hread
      obtain ⟨table, htable, heq⟩ := Option.bind_eq_some_iff.1 hread
      cases heq
      exact tidy_tableOf? htable (h.pairs hpairs)
  · exact tidy_of_map hread fun _ => nofun
  · exact tidy_of_map hread fun _ => nofun
  · obtain ⟨scalar, hscalar, heq⟩ := Option.map_eq_some_iff.1 hread
    cases heq
    exact tidy_scalar? hscalar

lemma ReadsTidy.pairs_succ (h : ReadsTidy fuel) {cs rest : List Char}
    {pairs : List (List String × String × Value)}
    (hread : pairs? (fuel + 1) cs = some (pairs, rest)) : ∀ p ∈ pairs, p.2.2.Tidy := by
  rw [pairs?] at hread
  obtain ⟨⟨p, rest⟩, hp, hread⟩ := Option.bind_eq_some_iff.1 hread
  have hfirst := h.pair hp
  dsimp only at hread
  split at hread
  · obtain ⟨⟨more, rest⟩, hmore, heq⟩ := Option.bind_eq_some_iff.1 hread
    cases heq
    exact List.forall_mem_cons.2 ⟨hfirst, h.pairs hmore⟩
  · cases hread
    exact List.forall_mem_singleton.2 hfirst
  · cases hread

lemma ReadsTidy.pair_succ (h : ReadsTidy fuel) {cs rest : List Char}
    {p : List String × String × Value} (hread : pair? (fuel + 1) cs = some (p, rest)) :
    p.2.2.Tidy := by
  rw [pair?] at hread
  obtain ⟨⟨keys, rest⟩, -, hread⟩ := Option.bind_eq_some_iff.1 hread
  dsimp only at hread
  split at hread
  · obtain ⟨⟨v, rest⟩, hv, heq⟩ := Option.bind_eq_some_iff.1 hread
    cases heq
    exact h.value hv
  · cases hread

lemma readsTidy (fuel : Nat) : ReadsTidy fuel := by
  induction fuel with
  | zero =>
    constructor
    · intro cs v rest h
      cases h
    · intro cs pairs rest h
      cases h
    · intro cs p rest h
      cases h
  | succ fuel ih =>
    exact ⟨fun _ _ _ => ih.value_succ, fun _ _ _ => ih.pairs_succ, fun _ _ _ => ih.pair_succ⟩

/-! ### Lines -/

lemma tidy_readLine? {p p' : Progress} {cs rest : List Char} (hroot : Distinct Node.Tidy p.root)
    (h : readLine? p cs = some (p', rest)) : Distinct Node.Tidy p'.root := by
  unfold readLine? at h
  split at h
  · obtain ⟨⟨keys, rest⟩, -, h⟩ := Option.bind_eq_some_iff.1 h
    obtain ⟨root, hadd, heq⟩ := Option.bind_eq_some_iff.1 h
    cases heq
    exact tidy_addToList hroot hadd
  · obtain ⟨⟨keys, rest⟩, -, h⟩ := Option.bind_eq_some_iff.1 h
    obtain ⟨root, hadd, heq⟩ := Option.bind_eq_some_iff.1 h
    cases heq
    exact tidy_addTable hroot hadd
  · obtain ⟨⟨⟨path, key, v⟩, rest⟩, hpair, h⟩ := Option.bind_eq_some_iff.1 h
    obtain ⟨root, hadd, heq⟩ := Option.bind_eq_some_iff.1 h
    cases heq
    exact tidy_addValue ((readsTidy _).pair hpair) hroot hadd

lemma tidy_readLines? {p p' : Progress} {cs : List Char} (hroot : Distinct Node.Tidy p.root)
    (h : readLines? p fuel cs = some p') : Distinct Node.Tidy p'.root := by
  induction fuel generalizing p cs with
  | zero => cases h
  | succ fuel ih =>
    rw [readLines?] at h
    split at h
    · cases h
      exact hroot
    · split at h
      · exact ih hroot h
      · split_ifs at h
        obtain ⟨⟨next, rest⟩, hline, h⟩ := Option.bind_eq_some_iff.1 h
        obtain ⟨rest, -, h⟩ := Option.bind_eq_some_iff.1 h
        exact ih (tidy_readLine? hroot hline) h

/-- A document gives a tidy table. -/
lemma tidy_ofText? {s : String} (h : ofText? s = some v) : v.IsTable ∧ v.Tidy := by
  obtain ⟨p, hp, heq⟩ := Option.bind_eq_some_iff.1 h
  cases heq
  refine ⟨?_, (tidy_table_iff.2 (tidy_readLines? .nil hp)).toValue⟩
  rw [Node.toValue]
  exact Value.isTable_table

end Toml

/-! ## The environment -/

namespace Environment

variable {v : Value} {fuel : Nat} {cs rest : List Char}

lemma tidy_plain : (plain cs).Tidy := by
  unfold plain
  split_ifs
  · exact .plain nofun
  · split <;> exact .plain nofun

/-- What is read with so much fuel is tidy. -/
structure ReadsTidy (fuel : Nat) : Prop where
  /-- A value. -/
  value : ∀ ⦃cs v rest⦄, value? fuel cs = some (v, rest) → v.Tidy
  /-- The entries of a table, on top of tidy ones. -/
  entries : ∀ ⦃cs entries entries' rest⦄, entries? fuel cs entries = some (entries', rest) →
    Distinct Value.Tidy entries → Distinct Value.Tidy entries'

lemma ReadsTidy.value_succ (h : ReadsTidy fuel) (hread : value? (fuel + 1) cs = some (v, rest)) :
    v.Tidy := by
  rw [value?] at hread
  split at hread
  · cases hread
    exact .plain nofun
  · cases hread
    exact .plain nofun
  · obtain ⟨_, hlist, heq⟩ := Option.bind_eq_some_iff.1 hread
    cases heq
    exact tidy_of_map hlist fun _ => nofun
  · obtain ⟨_, htable, heq⟩ := Option.bind_eq_some_iff.1 hread
    obtain ⟨⟨entries, rest⟩, hentries, rfl⟩ := Option.map_eq_some_iff.1 htable
    cases heq
    exact Value.tidy_table_iff.2 (h.entries hentries .nil)
  · obtain ⟨_, htext, heq⟩ := Option.bind_eq_some_iff.1 hread
    cases heq
    exact tidy_of_map htext fun _ => nofun
  · split at hread
    · cases hread
      exact .plain nofun
    · cases hread
  · cases hread
    exact tidy_plain

lemma ReadsTidy.entries_succ (h : ReadsTidy fuel) {entries entries' : List (String × Value)}
    (hread : entries? (fuel + 1) cs entries = some (entries', rest))
    (hentries : Distinct Value.Tidy entries) : Distinct Value.Tidy entries' := by
  rw [entries?.eq_def] at hread
  dsimp only at hread
  split at hread
  · cases hread
  · cases hread
    exact hentries
  · rename_i hfuel _
    cases hfuel
    obtain ⟨⟨key, rest⟩, -, hread⟩ := Option.bind_eq_some_iff.1 hread
    obtain ⟨⟨v, rest⟩, hv, hread⟩ := Option.bind_eq_some_iff.1 hread
    have hput : Distinct Value.Tidy (Value.put key v _) := hentries.put (h.value hv)
    dsimp only at hread
    split at hread
    · exact h.entries hread hput
    · cases hread
      exact hput
    · cases hread

lemma readsTidy (fuel : Nat) : ReadsTidy fuel := by
  induction fuel with
  | zero =>
    constructor
    · intro cs v rest h
      cases h
    · intro cs entries entries' rest h
      cases h
  | succ fuel ih => exact ⟨fun _ _ _ => ih.value_succ, fun _ _ _ _ => ih.entries_succ⟩

lemma tidy_value {s : String} : (value s).Tidy := by
  unfold value
  split
  · rename_i hv
    exact (readsTidy _).value hv
  · exact .plain nofun

lemma parts_ne_nil : parts cs ≠ [] := by
  unfold parts
  split
  · exact nofun
  · exact nofun
  · exact nofun
  · split <;> exact nofun

lemma path?_ne_nil {name : String} {path : List String} (h : path? name = some path) :
    path ≠ [] := by
  obtain ⟨rest, -, h⟩ := Option.bind_eq_some_iff.1 h
  dsimp only at h
  split_ifs at h
  cases h
  exact fun hnil => parts_ne_nil (List.map_eq_nil_iff.1 hnil)

/-- A variable that sets something gives a tidy table. -/
lemma tidy_layer? {name s : String} (h : layer? name s = some v) : v.IsTable ∧ v.Tidy := by
  obtain ⟨path, hpath, rfl⟩ := Option.map_eq_some_iff.1 h
  refine ⟨?_, Value.tidy_nest tidy_value⟩
  cases path with
  | nil => exact absurd rfl (path?_ne_nil hpath)
  | cons key path => exact Value.isTable_table

/-- The environment gives a tidy table. -/
lemma tidy_layer (environment : List (String × String)) :
    (layer environment).IsTable ∧ (layer environment).Tidy := by
  refine List.foldlRecOn (motive := fun v => v.IsTable ∧ v.Tidy) _ Value.merge
    ⟨Value.isTable_table, Value.tidy_table_iff.2 .nil⟩ fun low hlow high hhigh => ?_
  obtain ⟨⟨name, s⟩, -, hlayer⟩ := List.mem_filterMap.1 hhigh
  obtain ⟨htable, htidy⟩ := tidy_layer? hlayer
  exact ⟨Value.isTable_merge htable, hlow.2.merge htidy⟩

end Environment

/-! ## The command line and what is built in -/

/-- An option of the command line, as entries. -/
lemma lookup_optional {α : Type} {key other : String} {value : α → Value} {a : Option α} :
    (a.toList.map fun a => (key, value a)).lookup other =
      if other = key then a.map value else none := by
  cases a with
  | none => exact (ite_self none).symm
  | some a => exact lookup_entry_cons

lemma keys_optional_sublist {α : Type} {key : String} {value : α → Value} {a : Option α} :
    ((a.toList.map fun a => (key, value a)).map Prod.fst).Sublist [key] := by
  cases a with
  | none => exact List.nil_sublist [key]
  | some a => exact List.Sublist.refl [key]

lemma not_isTable_optional {α : Type} {key : String} {value : α → Value} {a : Option α}
    (h : ∀ a, ¬ (value a).IsTable) : ∀ p ∈ a.toList.map fun a => (key, value a), ¬ p.2.IsTable := by
  intro p hp
  obtain ⟨a, -, rfl⟩ := List.mem_map.1 hp
  exact h a

/-- The command line gives a tidy table. -/
lemma Overrides.tidy_layer (o : Overrides) : o.layer.IsTable ∧ o.layer.Tidy := by
  refine ⟨Value.isTable_table, Value.tidy_table_iff.2 (.of_mem ?_ ?_)⟩
  · have hkeys :
        ["network", "rpc_addr", "rpc_port", "data_dir", "metrics_port", "log_dir"].Nodup := by
      decide
    refine List.Nodup.sublist ?_ hkeys
    simp only [List.map_append]
    exact (((((keys_optional_sublist.append keys_optional_sublist).append
      keys_optional_sublist).append keys_optional_sublist).append
      keys_optional_sublist).append keys_optional_sublist)
  · intro p hp
    simp only [List.mem_append] at hp
    obtain ((((hp | hp) | hp) | hp) | hp) | hp := hp
    all_goals
      refine .plain (not_isTable_optional ?_ p hp)
      rintro a ⟨entries, h⟩
      cases h

/-- The value that the command line gives for each of its settings. -/
lemma Overrides.at?_layer (o : Overrides) :
    o.layer.at? ["network"] = o.network.map .text ∧
      o.layer.at? ["rpc_addr"] = o.rpcAddr.map .text ∧
      o.layer.at? ["rpc_port"] = o.rpcPort.map (.number ·.toNat) ∧
      o.layer.at? ["data_dir"] = o.dataDir.map .text ∧
      o.layer.at? ["metrics_port"] = o.metricsPort.map (.number ·.toNat) ∧
      o.layer.at? ["log_dir"] = o.logDir.map .text := by
  simp [layer, Value.at?, List.lookup_append, lookup_optional]

/-- What is built in is a tidy table. -/
lemma tidy_builtIn (home : String) : (builtIn home).IsTable ∧ (builtIn home).Tidy := by
  refine ⟨Value.isTable_table, Value.tidy_table_iff.2 (.of_mem (by simp) ?_)⟩
  simp only [List.forall_mem_cons]
  refine ⟨.plain nofun, .plain nofun, .plain nofun, .plain nofun, .plain nofun, .plain nofun,
    .plain nofun, ?_, .plain nofun, nofun⟩
  refine Value.tidy_table_iff.2 (.of_mem (by simp) ?_)
  simp only [List.forall_mem_cons]
  exact ⟨.plain nofun, .plain nofun, nofun⟩

end ChainHead.Settings
