import ChainHead.Proofs.Failure
import ChainHead.Proofs.Settings.Merging

/-!
# What settings are read from

Two values are alike if they have the same at every path of keys, whatever the order of their
entries.  A record looks its fields up by name, and no other reading goes into tables, so alike
values are read alike (`Config.form_read_eq`): to the same configuration, or with the same error.

A record that was read comes of its fields, each of which was read from what stands under its name
or has its own value when nothing stands there.
-/

namespace ChainHead.Settings

variable {α β : Type} {reader : Reading α} {v w : Value} {a : α} {c : Config} {path : List String}

namespace Value

/-- The same stands at every path. -/
def Alike (v w : Value) : Prop := ∀ path, v.ruling path = w.ruling path

lemma Alike.eq_or_tables (h : v.Alike w) : v = w ∨ v.IsTable ∧ w.IsTable := by
  have hhere := h []
  simp only [ruling, ruling?_nil, Option.getD_some] at hhere
  cases v <;> cases w <;> simp_all [here, IsTable]

/-- What stands under a key of alike tables is alike. -/
lemma Alike.lookup {entries others : List (String × Value)}
    (h : (table entries).Alike (table others)) (key : String) :
    Option.Rel Alike (entries.lookup key) (others.lookup key) := by
  have hbelow (path : List String) := h (key :: path)
  simp only [ruling, ruling?_table_cons] at hbelow
  cases hv : entries.lookup key with
  | none =>
    cases hw : others.lookup key with
    | none => exact .none
    | some w =>
      have hnil := hbelow []
      rw [hv, hw] at hnil
      exact absurd hnil.symm here_ne_nothing
  | some v =>
    cases hw : others.lookup key with
    | none =>
      have hnil := hbelow []
      rw [hv, hw] at hnil
      exact absurd hnil here_ne_nothing
    | some w =>
      rw [hv, hw] at hbelow
      exact .some hbelow

end Value

open Value

/-! ## Checks of a list -/

lemma forM_congr {ε : Type} {f g : α → Except ε Unit} {l : List α} (h : ∀ a ∈ l, f a = g a) :
    l.forM f = l.forM g := by
  induction l with
  | nil => rfl
  | cons a l ih =>
    obtain ⟨ha, hl⟩ := List.forall_mem_cons.1 h
    rw [List.forM, List.forM, ha, ih hl]

lemma forM_eq_ok_iff {ε : Type} {f : α → Except ε Unit} {l : List α} :
    l.forM f = .ok () ↔ ∀ a ∈ l, f a = .ok () := by
  induction l with
  | nil => exact iff_of_true rfl nofun
  | cons a l ih =>
    rw [List.forM, bind_eq_ok_iff, List.forall_mem_cons, ← ih]
    exact ⟨fun ⟨_, ha, hl⟩ => ⟨ha, hl⟩, fun ⟨ha, hl⟩ => ⟨(), ha, hl⟩⟩

lemma under_eq_ok_iff {key : String} {result : Except ReadError α} {a : α} :
    under key result = .ok a ↔ result = .ok a := by
  cases result with
  | error e => exact iff_of_false nofun nofun
  | ok b => rfl

/-! ## Alike values -/

/-- Alike values are read alike. -/
def Stable (reader : Reading α) : Prop := ∀ ⦃v w⦄, Alike v w → reader v = reader w

/-- A reading that takes no tables does not tell one table from another. -/
lemma stable_of_tables {e : ReadError} (h : ∀ entries, reader (.table entries) = .error e) :
    Stable reader := by
  intro v w halike
  obtain rfl | ⟨⟨entries, rfl⟩, ⟨others, rfl⟩⟩ := halike.eq_or_tables
  · rfl
  · rw [h entries, h others]

lemma stable_readText : Stable readText := stable_of_tables fun _ => rfl

lemma stable_readWord : Stable readWord := stable_of_tables fun _ => rfl

lemma stable_readPort : Stable readPort := stable_of_tables fun _ => rfl

lemma stable_readQuantity : Stable readQuantity := stable_of_tables fun _ => rfl

lemma stable_readBytes {n : Nat} : Stable (readBytes n) := stable_of_tables fun _ => rfl

lemma stable_readList : Stable (readList reader) := stable_of_tables fun _ => rfl

lemma stable_readOption (h : Stable reader) : Stable (readOption reader) := by
  intro v w halike
  obtain rfl | ⟨⟨entries, rfl⟩, ⟨others, rfl⟩⟩ := halike.eq_or_tables
  · rfl
  · exact congrArg (Except.map some) (h halike)

namespace Form

variable {form : Form α} {get : String → Option Value} {name : String}
  {missing : Except ReadError α} {omittable : Bool}

/-- A record that is put together of fields, each of them read alike from alike values. -/
structure Lawful (form : Form α) : Prop where
  /-- Alike values pass the check of a field alike. -/
  check : ∀ field ∈ form.fields, Stable field.check
  /-- Of alike values the same record is put together. -/
  build : ∀ ⦃get get' : String → Option Value⦄, (∀ key, Option.Rel Alike (get key) (get' key)) →
    form.build get = form.build get'
  /-- Where a record can be put together, the fields pass their checks. -/
  checked : ∀ ⦃get a⦄, form.build get = .ok a →
    ∀ field ∈ form.fields, ∀ v, get field.name = some v → field.check v = .ok ()

lemma build_map_eq_ok_iff {f : α → β} {b : β} :
    (f <$> form).build get = .ok b ↔ ∃ a, form.build get = .ok a ∧ f a = b := map_eq_ok_iff

lemma build_seq_eq_ok_iff {form : Form (α → β)} {next : Form α} {b : β} :
    (form <*> next).build get = .ok b ↔
      ∃ f, form.build get = .ok f ∧ ∃ a, next.build get = .ok a ∧ f a = b := by
  show (form.build get >>= fun f => next.build get >>= fun a => Except.ok (f a)) = .ok b ↔ _
  rw [bind_eq_ok_iff]
  refine exists_congr fun f => and_congr_right fun _ => ?_
  rw [bind_eq_ok_iff]
  simp only [Except.ok.injEq]

/-- A field is read from what stands under its name, or has a value of its own. -/
lemma build_field_eq_ok_iff : (field name reader missing omittable).build get = .ok a ↔
    (∃ v, get name = some v ∧ reader v = .ok a) ∨ get name = none ∧ missing = .ok a := by
  simp only [field]
  cases get name with
  | none => simp
  | some v => simp [under_eq_ok_iff]

lemma lawful_field (h : Stable reader) : (field name reader missing omittable).Lawful where
  check := by
    refine List.forall_mem_singleton.2 fun v w halike => ?_
    simp only [h halike]
  build := by
    intro get get' hget
    have hname := hget name
    simp only [field]
    generalize get name = a at hname ⊢
    generalize get' name = b at hname ⊢
    cases hname with
    | none => rfl
    | some halike => simp only [h halike]
  checked := by
    intro get a hbuild
    refine List.forall_mem_singleton.2 fun v hv => ?_
    obtain ⟨w, hw, ha⟩ | ⟨hnone, -⟩ := build_field_eq_ok_iff.1 hbuild
    · cases hv.symm.trans hw
      exact map_eq_ok_iff.2 ⟨a, under_eq_ok_iff.2 ha, rfl⟩
    · cases hnone.symm.trans hv

lemma Lawful.map (h : form.Lawful) (f : α → β) : (f <$> form).Lawful where
  check := h.check
  build := fun _ _ hget => congrArg (Except.map f) (h.build hget)
  checked := by
    intro get b hbuild
    obtain ⟨a, ha, -⟩ := build_map_eq_ok_iff.1 hbuild
    exact h.checked ha

lemma Lawful.seq {form : Form (α → β)} {next : Form α} (h : form.Lawful) (hnext : next.Lawful) :
    (form <*> next).Lawful where
  check field hfield := (List.mem_append.1 hfield).elim (h.check field) (hnext.check field)
  build := by
    intro get get' hget
    show (form.build get >>= fun f => next.build get >>= fun a => Except.ok (f a)) =
      (form.build get' >>= fun f => next.build get' >>= fun a => Except.ok (f a))
    rw [h.build hget, hnext.build hget]
  checked := by
    intro get b hbuild field hfield
    obtain ⟨f, hf, a, ha, -⟩ := build_seq_eq_ok_iff.1 hbuild
    exact (List.mem_append.1 hfield).elim (h.checked hf field) (hnext.checked ha field)

lemma mem_byName {field : Field} : field ∈ form.byName ↔ field ∈ form.fields := by
  rw [byName, List.mem_mergeSort]

/-- Alike values are read as the same record, or for the same reason as none. -/
lemma Lawful.stable_read (h : form.Lawful) : Stable form.read := by
  intro v w halike
  obtain rfl | ⟨⟨entries, rfl⟩, ⟨others, rfl⟩⟩ := halike.eq_or_tables
  · rfl
  rw [Form.read, Form.read, h.build halike.lookup]
  congr 1
  refine forM_congr fun field hfield => ?_
  have hname := halike.lookup field.name
  generalize entries.lookup field.name = a at hname ⊢
  generalize others.lookup field.name = b at hname ⊢
  cases hname with
  | none => rfl
  | some hbelow => exact h.check field (mem_byName.1 hfield) hbelow

/-- The checks decide only which fault is reported: a record is read from a table if it can be put
together of what stands in it. -/
lemma Lawful.read_table_eq_ok_iff (h : form.Lawful) {entries : List (String × Value)} :
    form.read (.table entries) = .ok a ↔ form.build (entries.lookup ·) = .ok a := by
  rw [Form.read, bind_eq_ok_iff]
  constructor
  · rintro ⟨_, -, hbuild⟩
    exact hbuild
  · intro hbuild
    refine ⟨(), forM_eq_ok_iff.2 fun field hfield => ?_, hbuild⟩
    cases hv : entries.lookup field.name with
    | none => rfl
    | some v => exact h.checked hbuild field (mem_byName.1 hfield) v hv

end Form

/-! ## The configuration -/

lemma lawful_timingForm : timingForm.Lawful :=
  ((Form.lawful_field stable_readWord).map Timing.mk).seq (Form.lawful_field stable_readWord)

lemma lawful_blockForm : blockForm.Lawful :=
  ((((Form.lawful_field stable_readBytes).map Block.mk).seq
    (Form.lawful_field stable_readQuantity)).seq
    (Form.lawful_field stable_readBytes)).seq
    (Form.lawful_field stable_readQuantity)

lemma Config.lawful_form : Config.form.Lawful :=
  (((((((((Form.lawful_field stable_readText).map Config.mk).seq
    (Form.lawful_field stable_readList)).seq
    (Form.lawful_field stable_readText)).seq
    (Form.lawful_field stable_readPort)).seq
    (Form.lawful_field stable_readText)).seq
    (Form.lawful_field (stable_readOption stable_readPort))).seq
    (Form.lawful_field (stable_readOption stable_readText))).seq
    (Form.lawful_field lawful_timingForm.stable_read)).seq
    (Form.lawful_field (stable_readOption lawful_blockForm.stable_read))

/-- Alike settings make the same configuration. -/
theorem Config.form_read_eq (h : v.Alike w) : Config.form.read v = Config.form.read w :=
  Config.lawful_form.stable_read h

/-! ## What a configuration is read from -/

/-- Whatever stands at the path is read as `a`. -/
def Reads (v : Value) (path : List String) (reader : Reading α) (a : α) : Prop :=
  ∀ w, v.at? path = some w → reader w = .ok a

lemma reads_of_build {name : String} {missing : Except ReadError α} {omittable : Bool}
    (h : (Form.field name reader missing omittable).build (fun name => v.at? [name]) = .ok a) :
    Reads v [name] reader a := by
  intro w hw
  obtain ⟨w', hw', ha⟩ | ⟨hnone, -⟩ := Form.build_field_eq_ok_iff.1 h
  · rwa [Option.some.inj (hw.symm.trans hw')]
  · exact nomatch hnone.symm.trans hw

lemma build_of_read {form : Form α} (hform : form.Lawful) (hv : v.IsTable)
    (h : form.read v = .ok a) : form.build (fun name => v.at? [name]) = .ok a := by
  obtain ⟨entries, rfl⟩ := hv
  simp only [at?_table_key]
  exact hform.read_table_eq_ok_iff.1 h

/-- A configuration is what its fields are read as, each of them by itself. -/
lemma Config.reads_of_read (hv : v.IsTable) (h : Config.form.read v = .ok c) :
    Reads v ["network"] readText c.network ∧
      Reads v ["hardforks"] (readList milestoneForm.read) c.hardforks ∧
      Reads v ["rpc_addr"] readText c.rpcAddr ∧
      Reads v ["rpc_port"] readPort c.rpcPort ∧
      Reads v ["data_dir"] readText c.dataDir ∧
      Reads v ["metrics_port"] (readOption readPort) c.metricsPort ∧
      Reads v ["log_dir"] (readOption readText) c.logDir ∧
      Reads v ["builder"] timingForm.read c.builder := by
  have hbuild := build_of_read Config.lawful_form hv h
  simp only [Config.form, Form.build_seq_eq_ok_iff, Form.build_map_eq_ok_iff] at hbuild
  obtain ⟨_, ⟨_, ⟨_, ⟨_, ⟨_, ⟨_, ⟨_, ⟨_, ⟨network, hnetwork, rfl⟩, hardforks, hhardforks, rfl⟩,
    rpcAddr, hrpcAddr, rfl⟩, rpcPort, hrpcPort, rfl⟩, dataDir, hdataDir, rfl⟩,
    metricsPort, hmetricsPort, rfl⟩, logDir, hlogDir, rfl⟩, builder, hbuilder, rfl⟩,
    genesis, -, rfl⟩ := hbuild
  exact ⟨reads_of_build hnetwork, reads_of_build hhardforks, reads_of_build hrpcAddr,
    reads_of_build hrpcPort, reads_of_build hdataDir, reads_of_build hmetricsPort,
    reads_of_build hlogDir, reads_of_build hbuilder⟩

lemma timing_reads_of_read {timing : Timing} (hv : v.IsTable)
    (h : timingForm.read v = .ok timing) :
    Reads v ["interval_ms"] readWord timing.intervalMs ∧
      Reads v ["deadline_ms"] readWord timing.deadlineMs := by
  have hbuild := build_of_read lawful_timingForm hv h
  simp only [timingForm, Form.build_seq_eq_ok_iff, Form.build_map_eq_ok_iff] at hbuild
  obtain ⟨_, ⟨interval, hinterval, rfl⟩, deadline, hdeadline, rfl⟩ := hbuild
  exact ⟨reads_of_build hinterval, reads_of_build hdeadline⟩

lemma Reads.below {outer key : String}
    (h : ∀ w, v.at? [outer] = some w → w.IsTable → Reads w [key] reader a) :
    Reads v [outer, key] reader a := by
  intro w hw
  rw [← List.singleton_append, at?_append] at hw
  obtain ⟨table, htable, hw⟩ := Option.bind_eq_some_iff.1 hw
  refine h table htable ?_ w hw
  by_contra hplain
  rw [at?_cons_of_not_isTable hplain] at hw
  cases hw

/-- The times of payload jobs are read where they stand, whatever `builder` is. -/
lemma Config.timing_reads_of_read (hv : v.IsTable) (h : Config.form.read v = .ok c) :
    Reads v ["builder", "interval_ms"] readWord c.builder.intervalMs ∧
      Reads v ["builder", "deadline_ms"] readWord c.builder.deadlineMs := by
  obtain ⟨-, -, -, -, -, -, -, hbuilder⟩ := Config.reads_of_read hv h
  have htiming (w : Value) (hw : v.at? ["builder"] = some w) (htable : w.IsTable) :=
    Settings.timing_reads_of_read htable (hbuilder w hw)
  exact ⟨.below fun w hw htable => (htiming w hw htable).1,
    .below fun w hw htable => (htiming w hw htable).2⟩

/-- No table stands where a setting was read from. -/
lemma Reads.ruling_ne_table (h : Reads v path reader a)
    (htables : ∀ entries, reader (.table entries) ≠ .ok a) : v.ruling path ≠ .table := by
  intro htable
  obtain ⟨entries, hentries⟩ := at?_of_ruling_eq_table htable
  exact htables entries (h _ hentries)

end ChainHead.Settings
