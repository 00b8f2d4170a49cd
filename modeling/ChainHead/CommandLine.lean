import ChainHead.Release
import ChainHead.Settings.Config

/-!
# The command line

An option is given by its long name behind two dashes or by its letter behind one.  Its value
follows as the next word, or in the same word behind an equals sign; behind a letter the sign may be
left out.  Letters of options without a value may be run together.  A word that starts with a dash
is no value, unless the dash is all there is.  There is nothing to say besides options, not even
behind two dashes.

Words are looked at in order, and an unknown one, a value that is too many and a call for help end
that.  Only then are the options checked, each for its value, the value's form, and being given
once; the option that is still waiting for its value comes first.
-/

namespace ChainHead.CommandLine

/-- An option. -/
inductive Argument where
  /-- The network. -/
  | network
  /-- The file of settings. -/
  | config
  /-- The directory of the chain. -/
  | dataDir
  /-- The address to serve on. -/
  | rpcAddr
  /-- The port to serve on. -/
  | rpcPort
  /-- The port to serve metrics on. -/
  | metricsPort
  /-- The directory for log files. -/
  | logDir
  /-- Whether more is logged. -/
  | verbose
  /-- To be told about the options. -/
  | help
  /-- To be told about the program. -/
  | version
deriving DecidableEq

/-- Why a command line is not taken. -/
inductive Refusal where
  /-- It asks for help. -/
  | displayHelp
  /-- It asks what the program is. -/
  | displayVersion
  /-- It has a word that means nothing. -/
  | unknownArgument
  /-- It gives an option twice. -/
  | unexpectedMultipleUsage
  /-- It gives an option without its value. -/
  | emptyValue
  /-- It gives a value of the wrong form. -/
  | valueValidation
  /-- It gives a value to an option that has none. -/
  | tooManyValues
deriving DecidableEq

/-- The name of a refusal. -/
def Refusal.name : Refusal → String
  | displayHelp => "DisplayHelp"
  | displayVersion => "DisplayVersion"
  | unknownArgument => "UnknownArgument"
  | unexpectedMultipleUsage => "UnexpectedMultipleUsage"
  | emptyValue => "EmptyValue"
  | valueValidation => "ValueValidation"
  | tooManyValues => "TooManyValues"

namespace Argument

/-- All options. -/
def all : List Argument :=
  [network, config, dataDir, rpcAddr, rpcPort, metricsPort, logDir, verbose, help, version]

/-- The long name of an option. -/
def longName : Argument → String
  | network => "network"
  | config => "config"
  | dataDir => "data-dir"
  | rpcAddr => "rpc-addr"
  | rpcPort => "rpc-port"
  | metricsPort => "metrics-port"
  | logDir => "log-dir"
  | verbose => "verbose"
  | help => "help"
  | version => "version"

/-- The letter of an option, if it has one. -/
def letter? : Argument → Option Char
  | network => some 'n'
  | config => some 'c'
  | verbose => some 'v'
  | help => some 'h'
  | version => some 'V'
  | _ => none

/-- Whether an option has a value. -/
def takesValue : Argument → Bool
  | verbose | help | version => false
  | _ => true

/-- The refusal that an option stands for, if it stands for one. -/
def refusal? : Argument → Option Refusal
  | help => some .displayHelp
  | version => some .displayVersion
  | _ => none

/-- The option with a long name. -/
def ofLongName? (s : String) : Option Argument := all.find? fun a => a.longName = s

/-- The option with a letter. -/
def ofLetter? (c : Char) : Option Argument := all.find? fun a => a.letter? = some c

end Argument

/-! ## Words -/

/-- A use of an option. -/
structure Use where
  /-- The option. -/
  argument : Argument
  /-- Its value, if it has one. -/
  value : Option String
deriving DecidableEq

/-- What was found so far. -/
structure Found where
  /-- The uses of options in their order. -/
  uses : List Use := []
  /-- The option that waits for its value. -/
  pending : Option Argument := none

/-- Adds the use of an option without a value in its word. -/
def Found.use (f : Found) (a : Argument) : Except Refusal Found :=
  match a.refusal? with
  | some refusal => .error refusal
  | none => .ok ⟨f.uses ++ [⟨a, none⟩], if a.takesValue then some a else none⟩

/-- Adds the use of an option with a value. -/
def Found.useWith (f : Found) (a : Argument) (value : String) : Found :=
  ⟨f.uses ++ [⟨a, some value⟩], none⟩

/-- Gives a value to the option that waits for one. -/
def Found.give (f : Found) (a : Argument) (value : String) : Found :=
  ⟨f.uses.dropLast ++ [⟨a, some value⟩], none⟩

/-- Reads what stands behind two dashes. -/
def long (f : Found) (cs : List Char) : Except Refusal Found :=
  match Argument.ofLongName? (String.ofList (cs.takeWhile (· ≠ '='))) with
  | none => .error .unknownArgument
  | some a =>
    match cs.dropWhile (· ≠ '=') with
    | [] => f.use a
    | _ :: value =>
      if a.takesValue then .ok (f.useWith a (String.ofList value)) else .error .tooManyValues

/-- Reads what stands behind one dash. -/
def short (f : Found) : List Char → Except Refusal Found
  | [] => .ok f
  | c :: rest =>
    match Argument.ofLetter? c with
    | none => .error .unknownArgument
    | some a =>
      if a.takesValue then
        match rest with
        | [] => f.use a
        | '=' :: value => .ok (f.useWith a (String.ofList value))
        | value => .ok (f.useWith a (String.ofList value))
      else do short (← f.use a) rest

/-- Reads words. -/
def scan (f : Found) : List String → Except Refusal Found
  | [] => .ok f
  | word :: rest =>
    match word.toList with
    | ['-', '-'] => if rest = [] then .ok f else .error .unknownArgument
    | '-' :: '-' :: cs => do scan (← long f cs) rest
    | '-' :: c :: cs => do scan (← short f (c :: cs)) rest
    | _ =>
      match f.pending with
      | some a => scan (f.give a word) rest
      | none => .error .unknownArgument

/-! ## Options -/

/-- What a command line says. -/
structure Options where
  /-- The file of settings, if one is named. -/
  config : Option String
  /-- Whether more is logged. -/
  verbose : Bool
  /-- What it sets. -/
  overrides : Settings.Overrides
deriving DecidableEq

/-- The values that were given to an option. -/
def valuesOf (uses : List Use) (a : Argument) : List String :=
  (uses.filter (·.argument = a)).filterMap Use.value

/-- The port that a text spells. -/
def port? (s : String) : Option UInt16 :=
  let cs := match s.toList with
    | '+' :: cs => cs
    | cs => cs
  let n := Nat.ofDigitChars 10 cs 0
  if cs ≠ [] ∧ cs.all Char.isDigit ∧ n < UInt16.size then some (UInt16.ofNat n) else none

/-- Whether the values of an option are of the form that it demands. -/
def wellFormed (a : Argument) (values : List String) : Bool :=
  match a with
  | .rpcPort | .metricsPort => values.all fun s => (port? s).isSome
  | _ => true

/-- Checks the uses of one option. -/
def check (uses : List Use) (a : Argument) : Except Refusal Unit :=
  let values := valuesOf uses a
  if a.takesValue ∧ values = [] then .error .emptyValue
  else if ! wellFormed a values then .error .valueValidation
  else if 1 < uses.countP (·.argument = a) then .error .unexpectedMultipleUsage
  else .ok ()

/-- Checks all uses of options. -/
def checkAll (f : Found) : Except Refusal Unit := do
  if let some a := f.pending then
    if valuesOf f.uses a = [] then throw .emptyValue
  f.uses.forM fun use => check f.uses use.argument

/-- Reads a command line.  The network may also be named by a variable of the environment. -/
def parse (words : List String) (network : Option String) : Except Refusal Options := do
  let f ← scan {} words
  checkAll f
  let value (a : Argument) := (valuesOf f.uses a).head?
  return {
    config := value .config
    verbose := f.uses.any (·.argument = .verbose)
    overrides := {
      network := value .network <|> network
      rpcAddr := value .rpcAddr
      rpcPort := (value .rpcPort).bind port?
      dataDir := value .dataDir
      metricsPort := (value .metricsPort).bind port?
      logDir := value .logDir } }

/-! ## What the program says -/

/-- How an option is written. -/
def Argument.spelling (a : Argument) : String :=
  let letter := match a.letter? with
    | some c => s!"-{c}, "
    | none => ""
  let value := if a.takesValue then " <value>" else ""
  s!"{letter}--{a.longName}{value}"

/-- The options, one a line. -/
def usage : String :=
  "\n".intercalate ("Options:" :: Argument.all.map fun a => "  " ++ a.spelling)

/-- What is said to a command line that is not taken. -/
def Refusal.message : Refusal → String
  | displayHelp => usage
  | displayVersion => Release.current.text
  | unknownArgument => "there is no such option"
  | unexpectedMultipleUsage => "an option is given twice"
  | emptyValue => "an option lacks its value"
  | valueValidation => "a value is not of the form that its option demands"
  | tooManyValues => "a value is given to an option that has none"

/-- Whether a refusal gives what the command line asks for. -/
def Refusal.isWanted : Refusal → Bool
  | displayHelp | displayVersion => true
  | _ => false

end ChainHead.CommandLine
