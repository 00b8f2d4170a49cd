import ChainHead.Block
import ChainHead.Build.Timing
import ChainHead.Failure
import ChainHead.Net.Address
import ChainHead.Request
import ChainHead.Settings.Environment
import ChainHead.Settings.Home
import ChainHead.Settings.Reader
import ChainHead.Settings.Toml.Document

/-!
# The configuration

The configuration is read from four layers of settings, each over the one before: what is built in,
the file, the environment, and the command line.  Of the command line only what was given counts.

From the configuration follow the address to serve on, the fork schedule and the first block.
-/

namespace ChainHead.Settings

/-- What the program is told to do. -/
structure Config where
  /-- The network. -/
  network : String
  /-- Milestones on top of the schedule of the network. -/
  hardforks : List Milestone
  /-- The address to serve on. -/
  rpcAddr : String
  /-- The port to serve on. -/
  rpcPort : UInt16
  /-- The directory of the chain. -/
  dataDir : String
  /-- The port to serve metrics on, if they are wanted. -/
  metricsPort : Option UInt16
  /-- The directory for log files, if they are wanted. -/
  logDir : Option String
  /-- The timing of payload jobs. -/
  builder : Timing
  /-- The first block, if it is not that of the network. -/
  genesis : Option Block
deriving DecidableEq

/-- What the command line sets. -/
structure Overrides where
  /-- The network. -/
  network : Option String := none
  /-- The address to serve on. -/
  rpcAddr : Option String := none
  /-- The port to serve on. -/
  rpcPort : Option UInt16 := none
  /-- The directory of the chain. -/
  dataDir : Option String := none
  /-- The port to serve metrics on. -/
  metricsPort : Option UInt16 := none
  /-- The directory for log files. -/
  logDir : Option String := none
deriving DecidableEq

/-! ## Layers -/

/-- The settings that are built in. -/
def builtIn (home : String) : Value := .table [
  ("network", .text "mainnet"),
  ("hardforks", .list []),
  ("rpc_addr", .text "127.0.0.1"),
  ("rpc_port", .number defaultPort),
  ("data_dir", .text (defaultDataDirectory home)),
  ("metrics_port", .unset),
  ("log_dir", .unset),
  ("builder", .table [("interval_ms", .number 500), ("deadline_ms", .number 12000)]),
  ("genesis", .unset)]

/-- The settings of the command line. -/
def Overrides.layer (o : Overrides) : Value :=
  let entry {α : Type} (key : String) (value : α → Value) (a : Option α) : List (String × Value) :=
    a.toList.map fun a => (key, value a)
  let port (p : UInt16) : Value := .number p.toNat
  .table <|
    entry "network" .text o.network ++ entry "rpc_addr" .text o.rpcAddr
    ++ entry "rpc_port" port o.rpcPort ++ entry "data_dir" .text o.dataDir
    ++ entry "metrics_port" port o.metricsPort ++ entry "log_dir" .text o.logDir

/-- Layers of settings, the lowest first, as one. -/
def merged (layers : List Value) : Value := layers.foldl Value.merge (.table [])

/-! ## Reading -/

/-- How a milestone is read. -/
def milestoneForm : Form Milestone :=
  Milestone.mk <$> .required "name" readText <*> .required "timestamp" readWord

/-- How the timing of payload jobs is read. -/
def timingForm : Form Timing :=
  Timing.mk <$> .defaulted "interval_ms" 500 readWord <*> .defaulted "deadline_ms" 12000 readWord

/-- How a block is read. -/
def blockForm : Form Block :=
  Block.mk <$> .required "hash" (readBytes 32)
    <*> .required "number" readQuantity
    <*> .required "parentHash" (readBytes 32)
    <*> .required "timestamp" readQuantity

/-- How the configuration is read. -/
def Config.form : Form Config :=
  Config.mk <$> .required "network" readText
    <*> .defaulted "hardforks" [] (readList milestoneForm.read)
    <*> .required "rpc_addr" readText
    <*> .required "rpc_port" readPort
    <*> .required "data_dir" readText
    <*> .optional "metrics_port" readPort
    <*> .optional "log_dir" readText
    <*> .defaulted "builder" {} timingForm.read
    <*> .optional "genesis" blockForm.read

/-- Why there is no configuration. -/
inductive LoadError where
  /-- The file is not well-formed. -/
  | malformedFile
  /-- A setting cannot be read. -/
  | unreadable (error : ReadError)
deriving DecidableEq

/-- The wording of a refusal. -/
def LoadError.message : LoadError → String
  | malformedFile => "the file of settings is not well-formed"
  | unreadable error => s!"setting {error.key}: {error.defect.message}"

/-- The names of the variables that set something. -/
def variableNames : List String :=
  Config.form.fields.map (fun field => Environment.nameOf [field.name])
  ++ timingForm.fields.map fun field => Environment.nameOf ["builder", field.name]

/-- The configuration that the layers make; without a file there is one layer less. -/
def Config.load (home : String) (file : Option String) (environment : List (String × String))
    (overrides : Overrides) : Except LoadError Config := do
  let file ← match file with
    | none => pure (.table [])
    | some s =>
      match Toml.ofText? s with
      | some v => pure v
      | none => throw .malformedFile
  (Config.form.read (merged [builtIn home, file, Environment.layer environment, overrides.layer]))
    |>.mapError .unreadable

namespace Config

/-! ## What follows from the configuration -/

/-- The address and port to serve on. -/
def rpcSocket (c : Config) : Except Fault String :=
  match Net.Address.ofText? c.rpcAddr with
  | some address => .ok (address.textWithPort c.rpcPort)
  | none => .error (.badAddress c.rpcAddr)

/-- The fork schedule: that of the network with the configured milestones on top.  A network that is
not known has to configure some. -/
def schedule (c : Config) : Except Fault Schedule :=
  match Schedule.ofNetwork? c.network with
  | some preset => .ok (preset.withOverrides c.hardforks)
  | none => if c.hardforks.isEmpty then .error (.noSchedule c.network) else .ok (.ofList c.hardforks)

/-- The hash and the time of the first block of a known network. -/
def knownGenesis : List (String × String × UInt64) := [
  ("mainnet", "0xd4e56740f876aef8c010b86a40d5f56745a118d0906a34e69aec8c0db1cb8fa3", 0),
  ("sepolia", "0x25a5cc106eea7138acab33231d7160d69cb777ee0c2c553fcddf5138993e6dd9", 1633267481),
  ("holesky", "0xb5f7f912443c940f21fd611f12828d75b534364ed9e95ca4e307729a4661bde4", 1695902400)]

/-- The first block of a known network. -/
def networkGenesis? (network : String) : Option Block := do
  let (_, hash, timestamp) ← knownGenesis.find? fun (name, _) => SameName network name
  return { hash := ← Bytes.ofText? 32 hash, number := 0, parentHash := .zero 32, timestamp }

/-- The first block: the configured one, or that of the network. -/
def genesisBlock (c : Config) : Except Fault Block :=
  match c.genesis, networkGenesis? c.network with
  | some b, _ => .ok b
  | none, some b => .ok b
  | none, none => .error (.noGenesis c.network)

end Config

end ChainHead.Settings
