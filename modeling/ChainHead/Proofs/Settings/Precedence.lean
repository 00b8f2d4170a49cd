import Mathlib
import ChainHead.Proofs.Settings.Reading
import ChainHead.Proofs.Settings.Sources

/-!
# The precedence of settings

Every setting has the value of the highest layer that sets it, in the order command line,
environment, file, built in (`Config.Follows`).  The times of payload jobs are settings of their own
inside the table `builder`, and each is decided apart from the other as long as no layer puts
something else than a table there.

A key of a lower layer that a higher layer sets as well does not matter.  Other sources whose layers
are the same, but for the value under such a key, make the same configuration
(`Config.load_highest`).
-/

namespace ChainHead.Settings

open Value

variable {α : Type} {reader : Reading α} {layers layers' : List Value} {path : List String}
  {key outer home : String} {file : Option String} {environment : List (String × String)}
  {overrides : Overrides} {c : Config} {v low low' : Value} {a : α}

/-! ## Layers -/

/-- The settings of the file, unless it is not well-formed; no file sets nothing. -/
def fileLayer? : Option String → Option Value
  | none => some (.table [])
  | some s => Toml.ofText? s

/-- The layers of settings, the highest first, unless the file is not well-formed. -/
def layers? (home : String) (file : Option String) (environment : List (String × String))
    (overrides : Overrides) : Option (List Value) :=
  (fileLayer? file).map fun file =>
    [overrides.layer, Environment.layer environment, file, builtIn home]

lemma load_eq_ok_iff : Config.load home file environment overrides = .ok c ↔
    ∃ layers, layers? home file environment overrides = some layers ∧
      Config.form.read (merged layers.reverse) = .ok c := by
  have hread (v : Value) : (Config.form.read v).mapError LoadError.unreadable = .ok c ↔
      Config.form.read v = .ok c := by
    cases Config.form.read v with
    | error e => simp [Except.mapError]
    | ok c => simp [Except.mapError]
  simp only [Config.load, layers?, Option.map_eq_some_iff]
  cases file with
  | none => simp [fileLayer?, hread]
  | some s =>
    simp only [fileLayer?]
    cases Toml.ofText? s with
    | none => simp [throw, throwThe, MonadExceptOf.throw, bind, Except.bind]
    | some v => simp [hread]

/-- Every layer is a tidy table. -/
lemma tidy_of_layers? (h : layers? home file environment overrides = some layers) :
    ∀ v ∈ layers, v.IsTable ∧ v.Tidy := by
  obtain ⟨v, hv, rfl⟩ := Option.map_eq_some_iff.1 h
  have hfile : v.IsTable ∧ v.Tidy := by
    cases file with
    | none =>
      cases hv
      exact ⟨isTable_table, tidy_table_iff.2 .nil⟩
    | some s => exact Toml.tidy_ofText? hv
  simp only [List.forall_mem_cons]
  exact ⟨overrides.tidy_layer, Environment.tidy_layer environment, hfile, tidy_builtIn home, nofun⟩

/-! ## The highest layer that sets something -/

/-- The setting at a path is what the highest layer says that sets it. -/
def Decides (layers : List Value) (path : List String) (reader : Reading α) (a : α) : Prop :=
  ∃ v, layers.findSome? (·.at? path) = some v ∧ reader v = .ok a

/-- On the way to the end of the path, no layer has anything but tables. -/
def Clear (layers : List Value) (path : List String) : Prop :=
  ∀ v ∈ layers, v.ruling? path = (v.at? path).map here

lemma clear_key (h : ∀ v ∈ layers, v.IsTable) : Clear layers [key] := by
  intro v hv
  obtain ⟨entries, rfl⟩ := h v hv
  rw [ruling?_table_cons, at?_table_cons]
  cases entries.lookup key <;> rfl

lemma clear_nested (h : ∀ v ∈ layers, v.IsTable)
    (houter : ∀ v ∈ layers, ∀ w, v.at? [outer] = some w → w.IsTable) :
    Clear layers [outer, key] := by
  intro v hv
  obtain ⟨entries, rfl⟩ := h v hv
  have hw := houter _ hv
  rw [at?_table_cons] at hw
  rw [ruling?_table_cons, at?_table_cons]
  cases hlookup : entries.lookup outer with
  | none => rfl
  | some w =>
    rw [hlookup] at hw
    have hbelow : Clear [w] [key] := clear_key (List.forall_mem_singleton.2 (hw w rfl))
    exact hbelow w (List.mem_singleton_self w)

lemma findSome?_congr {β : Type} {f g : Value → Option β} (h : ∀ v ∈ layers, f v = g v) :
    layers.findSome? f = layers.findSome? g := by
  induction layers with
  | nil => rfl
  | cons v layers ih =>
    obtain ⟨hv, hlayers⟩ := List.forall_mem_cons.1 h
    rw [List.findSome?_cons, List.findSome?_cons, hv, ih hlayers]

/-- At a path that is clear, merged layers rule what the highest layer has there that has
something. -/
lemma ruling_of_clear (htidy : ∀ v ∈ layers, v.Tidy) (hclear : Clear layers (key :: path)) :
    (merged layers.reverse).ruling (key :: path) =
      ((layers.findSome? (·.at? (key :: path))).map here).getD .nothing := by
  have hrulings : layers.findSome? (·.ruling? (key :: path)) =
      (layers.findSome? (·.at? (key :: path))).map here := by
    rw [List.map_findSome?]
    exact findSome?_congr hclear
  rw [ruling_merged htidy, hrulings]
  rfl

/-- What stands at a clear path of merged layers, and is no table, is what the highest layer has
there that has something. -/
lemma highest_of_at? (htidy : ∀ v ∈ layers, v.Tidy) (hclear : Clear layers (key :: path))
    (hv : (merged layers.reverse).at? (key :: path) = some v) (hplain : ¬ v.IsTable) :
    layers.findSome? (·.at? (key :: path)) = some v := by
  have hruling := ruling_of_clear htidy hclear
  rw [ruling_eq, hv, Option.map_some, Option.getD_some, here_of_not_isTable hplain] at hruling
  cases hhighest : layers.findSome? (·.at? (key :: path)) with
  | none =>
    rw [hhighest] at hruling
    cases hruling
  | some w =>
    rw [hhighest, Option.map_some, Option.getD_some] at hruling
    rw [eq_of_here_eq_plain hruling.symm]

/-- Merged layers have something at a clear path if one of them has. -/
lemma at?_merged_ne_none (htidy : ∀ v ∈ layers, v.Tidy) (hclear : Clear layers (key :: path))
    {layer : Value} (hlayer : layer ∈ layers) (hset : layer.at? (key :: path) ≠ none) :
    (merged layers.reverse).at? (key :: path) ≠ none := by
  intro hnone
  have hruling := ruling_of_clear htidy hclear
  rw [ruling_eq_nothing_iff.2 hnone] at hruling
  cases hhighest : layers.findSome? (·.at? (key :: path)) with
  | none => exact hset (List.findSome?_eq_none_iff.1 hhighest layer hlayer)
  | some w =>
    rw [hhighest] at hruling
    exact here_ne_nothing hruling.symm

/-! ## The settings of a configuration -/

/-- Every setting is what the highest layer says that sets it. -/
structure Config.Follows (layers : List Value) (c : Config) : Prop where
  network : Decides layers ["network"] readText c.network
  hardforks : Decides layers ["hardforks"] (readList milestoneForm.read) c.hardforks
  rpcAddr : Decides layers ["rpc_addr"] readText c.rpcAddr
  rpcPort : Decides layers ["rpc_port"] readPort c.rpcPort
  dataDir : Decides layers ["data_dir"] readText c.dataDir
  metricsPort : Decides layers ["metrics_port"] (readOption readPort) c.metricsPort
  logDir : Decides layers ["log_dir"] (readOption readText) c.logDir
  /-- The times of payload jobs, where every layer that sets `builder` sets it as a table. -/
  builder : (∀ v ∈ layers, ∀ w, v.at? ["builder"] = some w → w.IsTable) →
    Decides layers ["builder", "interval_ms"] readWord c.builder.intervalMs ∧
      Decides layers ["builder", "deadline_ms"] readWord c.builder.deadlineMs

lemma isTable_merged (h : ∀ v ∈ layers, v.IsTable) : (merged layers.reverse).IsTable :=
  List.foldlRecOn (motive := IsTable) layers.reverse merge isTable_table
    fun _ _ v hv => isTable_merge (h v (List.mem_reverse.1 hv))

/-- What is read from a clear path of merged layers, where one of them has something, is decided by
the highest one that has. -/
lemma decides_of_reads (htidy : ∀ v ∈ layers, v.Tidy) (hclear : Clear layers (key :: path))
    {layer : Value} (hlayer : layer ∈ layers) (hset : layer.at? (key :: path) ≠ none)
    (htables : ∀ entries, reader (.table entries) ≠ .ok a)
    (h : Reads (merged layers.reverse) (key :: path) reader a) :
    Decides layers (key :: path) reader a := by
  obtain ⟨v, hv⟩ := Option.ne_none_iff_exists'.1 (at?_merged_ne_none htidy hclear hlayer hset)
  refine ⟨v, highest_of_at? htidy hclear hv ?_, h v hv⟩
  rintro ⟨entries, rfl⟩
  exact htables entries (h _ hv)

/-- A configuration follows the layers that it is made of. -/
theorem Config.follows_layers (hlayers : ∀ v ∈ layers, v.IsTable ∧ v.Tidy)
    (hbuiltIn : builtIn home ∈ layers) (h : Config.form.read (merged layers.reverse) = .ok c) :
    c.Follows layers := by
  have htable (v : Value) (hv : v ∈ layers) := (hlayers v hv).1
  have htidy (v : Value) (hv : v ∈ layers) := (hlayers v hv).2
  have hmerged := isTable_merged htable
  obtain ⟨hnetwork, hhardforks, hrpcAddr, hrpcPort, hdataDir, hmetricsPort, hlogDir, -⟩ :=
    Config.reads_of_read hmerged h
  obtain ⟨hinterval, hdeadline⟩ := Config.timing_reads_of_read hmerged h
  have hdecides {β : Type} {name : String} {reader : Reading β} {b : β}
      (hset : (builtIn home).at? [name] ≠ none)
      (htables : ∀ entries, reader (.table entries) ≠ .ok b)
      (hreads : Reads (merged layers.reverse) [name] reader b) : Decides layers [name] reader b :=
    decides_of_reads htidy (clear_key htable) hbuiltIn hset htables hreads
  refine ⟨hdecides nofun (fun _ => nofun) hnetwork, hdecides nofun (fun _ => nofun) hhardforks,
    hdecides nofun (fun _ => nofun) hrpcAddr, hdecides nofun (fun _ => nofun) hrpcPort,
    hdecides nofun (fun _ => nofun) hdataDir, hdecides nofun (fun _ => nofun) hmetricsPort,
    hdecides nofun (fun _ => nofun) hlogDir, fun htables => ?_⟩
  have hclear (name : String) : Clear layers ["builder", name] := clear_nested htable htables
  exact ⟨decides_of_reads htidy (hclear "interval_ms") hbuiltIn nofun (fun _ => nofun) hinterval,
    decides_of_reads htidy (hclear "deadline_ms") hbuiltIn nofun (fun _ => nofun) hdeadline⟩

/-! ## The command line -/

/-- What the command line sets is what it says. -/
structure Config.Heeds (overrides : Overrides) (c : Config) : Prop where
  network : ∀ s, overrides.network = some s → c.network = s
  rpcAddr : ∀ s, overrides.rpcAddr = some s → c.rpcAddr = s
  rpcPort : ∀ port, overrides.rpcPort = some port → c.rpcPort = port
  dataDir : ∀ s, overrides.dataDir = some s → c.dataDir = s
  metricsPort : ∀ port, overrides.metricsPort = some port → c.metricsPort = some port
  logDir : ∀ s, overrides.logDir = some s → c.logDir = some s

/-- What the first layer sets is decided by it. -/
lemma Decides.reader_eq {top : Value} (h : Decides (top :: layers) path reader a)
    (htop : top.at? path = some v) : reader v = .ok a := by
  obtain ⟨w, hw, ha⟩ := h
  rw [List.findSome?_cons, htop] at hw
  cases hw
  exact ha

lemma readPort_toNat (port : UInt16) : readPort (.number port.toNat) = .ok port := by
  have hport := port.toNat_lt
  have hrange : (0 : Int) ≤ port.toNat ∧ (port.toNat : Int) < (UInt16.size : Nat) := by
    simp only [UInt16.size]
    omega
  rw [readPort, readBelow, if_pos hrange, Int.toNat_natCast]
  exact congrArg Except.ok (UInt16.ofNat_toNat)

lemma readOption_toNat (port : UInt16) :
    readOption readPort (.number port.toNat) = .ok (some port) := by
  rw [readOption, readPort_toNat]
  · rfl
  · exact nofun

lemma Config.Follows.heeds (h : c.Follows (overrides.layer :: layers)) : c.Heeds overrides := by
  obtain ⟨hnetwork, hrpcAddr, hrpcPort, hdataDir, hmetricsPort, hlogDir⟩ := overrides.at?_layer
  constructor
  · intro s hs
    rw [hs] at hnetwork
    exact (Except.ok.inj (h.network.reader_eq hnetwork)).symm
  · intro s hs
    rw [hs] at hrpcAddr
    exact (Except.ok.inj (h.rpcAddr.reader_eq hrpcAddr)).symm
  · intro port hport
    rw [hport] at hrpcPort
    exact (Except.ok.inj ((readPort_toNat port).symm.trans (h.rpcPort.reader_eq hrpcPort))).symm
  · intro s hs
    rw [hs] at hdataDir
    exact (Except.ok.inj (h.dataDir.reader_eq hdataDir)).symm
  · intro port hport
    rw [hport] at hmetricsPort
    have hread := h.metricsPort.reader_eq hmetricsPort
    exact (Except.ok.inj ((readOption_toNat port).symm.trans hread)).symm
  · intro s hs
    rw [hs] at hlogDir
    exact (Except.ok.inj (h.logDir.reader_eq hlogDir)).symm

/-! ## Keys that do not matter -/

/-- Values that differ at most in what stands at a path.  A table on the way that would be empty may
be missing. -/
def SameBut : List String → Value → Value → Prop
  | [], _, _ => True
  | key :: path, v, w => ∃ entries others, v = .table entries ∧ w = .table others ∧
      (∀ other, other ≠ key → entries.lookup other = others.lookup other) ∧
        SameBut path ((entries.lookup key).getD (.table [])) ((others.lookup key).getD (.table []))

/-- Aside from the path, and from what is above or below its end, the two values say the same. -/
lemma SameBut.ruling?_eq {w : Value} (h : SameBut path v w) {other : List String}
    (habove : ¬ other <+: path) (hbelow : ¬ path <+: other) :
    v.ruling? other = w.ruling? other := by
  induction path generalizing v w other with
  | nil => exact absurd List.nil_prefix hbelow
  | cons key path ih =>
    obtain ⟨entries, others, rfl, rfl, hsame, hkey⟩ := h
    cases other with
    | nil => exact absurd List.nil_prefix habove
    | cons first other =>
      rw [ruling?_table_cons, ruling?_table_cons]
      by_cases hfirst : first = key
      · subst hfirst
        rw [List.cons_prefix_cons] at habove hbelow
        have hother := ih hkey (fun h => habove ⟨rfl, h⟩) fun h => hbelow ⟨rfl, h⟩
        cases other with
        | nil => exact absurd ⟨rfl, List.nil_prefix⟩ habove
        | cons second other =>
          -- A table that is missing is as silent on what is in it as an empty one.
          have hempty (found : Option Value) :
              (found.bind fun v => v.ruling? (second :: other)) =
                (found.getD (.table [])).ruling? (second :: other) := by
            cases found <;> rfl
          rw [hempty, hempty, hother]
      · rw [hsame first hfirst]

/-- The settings of which each is decided by itself. -/
def Config.settings : List (List String) :=
  [["network"], ["hardforks"], ["rpc_addr"], ["rpc_port"], ["data_dir"], ["metrics_port"],
    ["log_dir"], ["builder", "interval_ms"], ["builder", "deadline_ms"]]

/-- One layer differs in what stands at a path, and a higher layer sets that as well. -/
def Overridden (path : List String) (layers layers' : List Value) : Prop :=
  ∃ above low low' below, layers = above ++ low :: below ∧ layers' = above ++ low' :: below ∧
    SameBut path low low' ∧
      ∃ high ∈ above, ∃ v, high.at? path = some v ∧ (path ∈ Config.settings ∨ ¬ v.IsTable)

lemma Config.ruling_ne_table (hv : v.IsTable) (h : Config.form.read v = .ok c)
    (hpath : path ∈ Config.settings) : v.ruling path ≠ .table := by
  obtain ⟨hnetwork, hhardforks, hrpcAddr, hrpcPort, hdataDir, hmetricsPort, hlogDir, -⟩ :=
    Config.reads_of_read hv h
  obtain ⟨hinterval, hdeadline⟩ := Config.timing_reads_of_read hv h
  simp only [Config.settings, List.mem_cons, List.not_mem_nil, or_false] at hpath
  obtain rfl | rfl | rfl | rfl | rfl | rfl | rfl | rfl | rfl := hpath
  · exact hnetwork.ruling_ne_table fun _ => nofun
  · exact hhardforks.ruling_ne_table fun _ => nofun
  · exact hrpcAddr.ruling_ne_table fun _ => nofun
  · exact hrpcPort.ruling_ne_table fun _ => nofun
  · exact hdataDir.ruling_ne_table fun _ => nofun
  · exact hmetricsPort.ruling_ne_table fun _ => nofun
  · exact hlogDir.ruling_ne_table fun _ => nofun
  · exact hinterval.ruling_ne_table fun _ => nofun
  · exact hdeadline.ruling_ne_table fun _ => nofun

/-- Above the layer that differs there is one that decides what stands at the path, and it is no
table. -/
lemma exists_ruling_ne_table {above below : List Value} (hlayers : ∀ v ∈ layers, v.IsTable ∧ v.Tidy)
    (h : Config.form.read (merged layers.reverse) = .ok c) (heq : layers = above ++ below)
    {high : Value} (hhigh : high ∈ above) (hset : high.at? path = some v)
    (hpath : path ∈ Config.settings ∨ ¬ v.IsTable) :
    ∃ top ∈ above, ∃ ruling, top.ruling? path = some ruling ∧ ruling ≠ .table := by
  have hruling := ruling?_of_at? hset
  obtain hsetting | hplain := hpath
  · have hmerged : (merged layers.reverse).ruling path ≠ .table :=
      Config.ruling_ne_table (isTable_merged fun v hv => (hlayers v hv).1) h hsetting
    rw [ruling_merged fun v hv => (hlayers v hv).2, heq, List.findSome?_append] at hmerged
    cases hhighest : above.findSome? (·.ruling? path) with
    | none => exact nomatch (List.findSome?_eq_none_iff.1 hhighest high hhigh).symm.trans hruling
    | some ruling =>
      obtain ⟨top, htop, hdecides⟩ := List.exists_of_findSome?_eq_some hhighest
      rw [hhighest] at hmerged
      exact ⟨top, htop, ruling, hdecides, hmerged⟩
  · rw [here_of_not_isTable hplain] at hruling
    exact ⟨high, hhigh, .plain v, hruling, nofun⟩

/-- What a higher layer sets as well does not matter for the merged layers. -/
lemma Overridden.alike (hlayers : ∀ v ∈ layers, v.IsTable ∧ v.Tidy)
    (hlayers' : ∀ v ∈ layers', v.IsTable ∧ v.Tidy)
    (h : Config.form.read (merged layers.reverse) = .ok c)
    (hoverridden : Overridden path layers layers') :
    (merged layers.reverse).Alike (merged layers'.reverse) := by
  obtain ⟨above, low, low', below, hl, hl', hbut, high, hhigh, v, hset, hpath⟩ := hoverridden
  obtain ⟨top, htop, ruling, hruling, hplain⟩ :=
    exists_ruling_ne_table hlayers h hl hhigh hset hpath
  intro other
  rw [ruling_merged fun v hv => (hlayers v hv).2, ruling_merged fun v hv => (hlayers' v hv).2]
  congr 1
  rw [hl, hl', List.findSome?_append, List.findSome?_append]
  -- On the way to the path and behind it the upper layers decide, and elsewhere nothing differs.
  by_cases hnear : other <+: path ∨ path <+: other
  · have hdecided : top.ruling? other ≠ none := by
      obtain ⟨more, rfl⟩ | ⟨more, rfl⟩ := hnear
      · have hend : top.ruling? (other ++ more) ≠ none := by
          rw [hruling]
          exact nofun
        exact ruling?_append_ne_none hend
      · exact ruling?_append_of_ne_table hruling hplain
    cases hhighest : above.findSome? (·.ruling? other) with
    | none => exact absurd (List.findSome?_eq_none_iff.1 hhighest top htop) hdecided
    | some ruling => rfl
  · obtain ⟨habove, hbelow⟩ := not_or.1 hnear
    rw [List.findSome?_cons, List.findSome?_cons, hbut.ruling?_eq habove hbelow]

/-- The configuration follows its layers and heeds the command line, and other sources in which a
layer differs in a key that a higher layer sets as well make the same one. -/
theorem Config.load_highest (h : Config.load home file environment overrides = .ok c) :
    ∃ layers, layers? home file environment overrides = some layers ∧
      c.Follows layers ∧ c.Heeds overrides ∧
        ∀ home' file' environment' overrides' layers' path,
          layers? home' file' environment' overrides' = some layers' →
            Overridden path layers layers' →
              Config.load home' file' environment' overrides' = .ok c := by
  obtain ⟨layers, hlayers, hread⟩ := load_eq_ok_iff.1 h
  have htidy := tidy_of_layers? hlayers
  obtain ⟨v, -, heq⟩ := Option.map_eq_some_iff.1 hlayers
  have hbuiltIn : builtIn home ∈ layers := by simp [← heq]
  have hfollows : c.Follows layers := Config.follows_layers htidy hbuiltIn hread
  refine ⟨layers, hlayers, hfollows, Config.Follows.heeds (heq ▸ hfollows), ?_⟩
  intro home' file' environment' overrides' layers' path hlayers' hoverridden
  have halike := hoverridden.alike htidy (tidy_of_layers? hlayers') hread
  exact load_eq_ok_iff.2 ⟨layers', hlayers', Config.form_read_eq halike ▸ hread⟩

/-! ### A file, two variables and an option -/

/-- A file that sets a port, which a variable sets as well, and one of the times of jobs. -/
def portFile : String := "rpc_port = 9551\n[builder]\ninterval_ms = 250\n"

/-- The same file without the port. -/
def portlessFile : String := "[builder]\ninterval_ms = 250\n"

/-- The variables: the port, and the other one of the times. -/
def portVariables : List (String × String) :=
  [("TILLER_RPC_PORT", "7551"), ("TILLER_BUILDER__DEADLINE_MS", "4000")]

/-- The configuration that comes of them and of an option of the command line. -/
def portConfig : Config where
  network := "mainnet"
  hardforks := []
  rpcAddr := "127.0.0.1"
  rpcPort := 7551
  dataDir := defaultDataDirectory "/root"
  metricsPort := some 9300
  logDir := none
  builder := ⟨250, 4000⟩
  genesis := none

/-- The layers of the file, or of the file without the port. -/
lemma layers?_portFiles :
    layers? "/root" (some portFile) portVariables { metricsPort := some 9300 } =
        some [Overrides.layer { metricsPort := some 9300 }, Environment.layer portVariables,
          .table [("rpc_port", .number 9551), ("builder", .table [("interval_ms", .number 250)])],
          builtIn "/root"] ∧
      layers? "/root" (some portlessFile) portVariables { metricsPort := some 9300 } =
        some [Overrides.layer { metricsPort := some 9300 }, Environment.layer portVariables,
          .table [("builder", .table [("interval_ms", .number 250)])], builtIn "/root"] := by
  have hfile : Toml.ofText? portFile = some (.table [("rpc_port", .number 9551),
    ("builder", .table [("interval_ms", .number 250)])]) := by cbv
  have hfile' : Toml.ofText? portlessFile = some (.table
    [("builder", .table [("interval_ms", .number 250)])]) := by cbv
  exact ⟨Option.map_eq_some_iff.2 ⟨_, hfile, rfl⟩, Option.map_eq_some_iff.2 ⟨_, hfile', rfl⟩⟩

lemma layer_portVariables : Environment.layer portVariables =
    .table [("rpc_port", .number 7551), ("builder", .table [("deadline_ms", .number 4000)])] := by
  cbv

lemma load_portFile :
    Config.load "/root" (some portFile) portVariables { metricsPort := some 9300 } =
      .ok portConfig := by
  refine load_eq_ok_iff.2 ⟨_, layers?_portFiles.1, ?_⟩
  have hmerged : merged [builtIn "/root",
      .table [("rpc_port", .number 9551), ("builder", .table [("interval_ms", .number 250)])],
      Environment.layer portVariables, Overrides.layer { metricsPort := some 9300 }] =
      .table [("network", .text "mainnet"), ("hardforks", .list []),
        ("rpc_addr", .text "127.0.0.1"), ("rpc_port", .number 7551),
        ("data_dir", .text (defaultDataDirectory "/root")), ("metrics_port", .number 9300),
        ("log_dir", .unset),
        ("builder", .table [("interval_ms", .number 250), ("deadline_ms", .number 4000)]),
        ("genesis", .unset)] := by
    rw [layer_portVariables]
    simp [merged, builtIn, Overrides.layer, merge, merge.mergeEntries, put, List.lookup_cons]
  have hbuilder : timingForm.read
      (.table [("interval_ms", .number 250), ("deadline_ms", .number 4000)]) = .ok ⟨250, 4000⟩ :=
    lawful_timingForm.read_table_eq_ok_iff.2 rfl
  simp only [List.reverse_cons, List.reverse_nil, List.nil_append, List.cons_append, hmerged]
  rw [Config.lawful_form.read_table_eq_ok_iff]
  simp only [Config.form, Form.build_seq_eq_ok_iff, Form.build_map_eq_ok_iff]
  exact ⟨_, ⟨_, ⟨_, ⟨_, ⟨_, ⟨_, ⟨_, ⟨_, ⟨_, rfl, rfl⟩, _, rfl, rfl⟩, _, rfl, rfl⟩, _, rfl, rfl⟩,
    _, rfl, rfl⟩, _, rfl, rfl⟩, _, rfl, rfl⟩,
    _, Form.build_field_eq_ok_iff.2 (.inl ⟨_, rfl, hbuilder⟩), rfl⟩, _, rfl, rfl⟩

/-- The port of the file may be left out, since the variable sets it. -/
theorem Config.load_highest_portFiles :
    Config.load "/root" (some portFile) portVariables { metricsPort := some 9300 } =
        .ok portConfig ∧
      Config.load "/root" (some portlessFile) portVariables { metricsPort := some 9300 } =
        .ok portConfig := by
  refine ⟨load_portFile, ?_⟩
  obtain ⟨layers, hlayers, -, -, hsame⟩ := Config.load_highest load_portFile
  obtain ⟨hport, hportless⟩ := layers?_portFiles
  cases hlayers.symm.trans hport
  refine hsame _ _ _ _ _ ["rpc_port"] hportless ⟨[_, _], _, _, [_], rfl, rfl, ?_, ?_⟩
  · exact ⟨_, _, rfl, rfl, fun other hother => by rw [lookup_entry_cons, if_neg hother], trivial⟩
  · refine ⟨_, List.mem_cons_of_mem _ List.mem_cons_self, .number 7551, ?_, .inr nofun⟩
    rw [layer_portVariables]
    rfl

end ChainHead.Settings
