import Reckoner.Text.Blank
import Reckoner.Text.Utf8
import Reckoner.Toml.Document
import Reckoner.Worker.Pace

/-!
# Settings

Settings come from a TOML document, and some of them from the environment, which goes before the
document. Everything has a default. A document that cannot be read, or in which a setting has the
wrong type or is out of range, is ignored as a whole; so is a single variable with such a value.
Unknown settings mean nothing.
-/

namespace Reckoner

/-- Where the orchestrator listens. -/
structure OrchestratorSettings where
  host : String
  port : Nat
deriving DecidableEq, Repr

/-- How a pool of workers works. -/
structure AgentSettings where
  /-- The number of workers. -/
  computingPower : Nat
  /-- The address of the orchestrator. -/
  orchestratorUrl : String
  /-- Milliseconds between two polls while there is nothing to do. -/
  pollInterval : Nat
  /-- Milliseconds after a failed call. -/
  errorBackoff : Nat
deriving DecidableEq, Repr

/-- All settings. -/
structure Settings where
  orchestrator : OrchestratorSettings
  agent : AgentSettings
  /-- The least time of each operation in milliseconds. -/
  floors : Floors
deriving DecidableEq, Repr

/-- The address of the orchestrator by default. -/
def OrchestratorSettings.standard : OrchestratorSettings := ⟨"127.0.0.1", 8080⟩

/-- The pool of workers by default. -/
def AgentSettings.standard : AgentSettings := ⟨4, "http://127.0.0.1:8080", 500, 1000⟩

namespace Settings

/-- The settings without a document and variables. -/
def standard : Settings := ⟨.standard, .standard, Floors.uniform 1000⟩

/-- The pace of a worker. -/
def pace (s : Settings) : Pace := ⟨s.agent.pollInterval, s.agent.errorBackoff, s.floors⟩

/-! ## Reading a document -/

open Toml

/-- A text. -/
def textOf? : Item → Option String
  | .text s => some s
  | _ => none

/-- An integer from zero up to below a limit. -/
def naturalOf? (limit : Nat) : Item → Option Nat
  | .integer n => if 0 ≤ n ∧ n < limit then some n.toNat else none
  | _ => none

/-- An integer without a sign in 64 bits. -/
def wordOf? : Item → Option Nat := naturalOf? UInt64.size

/-- Where the settings of a group are found. -/
inductive Source where
  /-- Under their names. -/
  | named (members : Members)
  /-- In their order; those at the end may be left out. -/
  | listed (elements : List Item)

/-- The source that an item is. A date has no settings in it; nor has anything that is no group. -/
def Source.of? : Item → Option Source
  | .table _ members => some (.named members)
  | .array elements => some (.listed elements)
  | .tables elements => some (.listed (elements.map (.table .header)))
  | .moment => some (.named [])
  | _ => none

/-- The setting with a name and a position, read by `f`; the default if it is not there. -/
def Source.setting {α : Type} (source : Source) (name : String) (position : Nat)
    (f : Item → Option α) (default : α) : Option α :=
  let item :=
    match source with
    | named members => members.get? name
    | listed elements => elements[position]?
  match item with
  | none => some default
  | some item => f item

/-- Reads where the orchestrator listens. -/
def readOrchestrator? (item : Item) : Option OrchestratorSettings := do
  let source ← Source.of? item
  let standard := OrchestratorSettings.standard
  return { host := ← source.setting "host" 0 textOf? standard.host
           port := ← source.setting "port" 1 (naturalOf? UInt16.size) standard.port }

/-- Reads how a pool works. -/
def readAgent? (item : Item) : Option AgentSettings := do
  let source ← Source.of? item
  let standard := AgentSettings.standard
  return {
    computingPower := ← source.setting "computing_power" 0 wordOf? standard.computingPower
    orchestratorUrl := ← source.setting "orchestrator_url" 1 textOf? standard.orchestratorUrl
    pollInterval := ← source.setting "poll_interval_ms" 2 wordOf? standard.pollInterval
    errorBackoff := ← source.setting "error_backoff_ms" 3 wordOf? standard.errorBackoff }

/-- Reads the least times. -/
def readFloors? (item : Item) : Option Floors := do
  let source ← Source.of? item
  return {
    addition := ← source.setting "addition_ms" 0 wordOf? 1000
    subtraction := ← source.setting "subtraction_ms" 1 wordOf? 1000
    multiplication := ← source.setting "multiplication_ms" 2 wordOf? 1000
    division := ← source.setting "division_ms" 3 wordOf? 1000
    power := ← source.setting "power_ms" 4 wordOf? 1000
    negation := ← source.setting "negation_ms" 5 wordOf? 1000 }

/-- The settings in a document, if nothing is wrong with it. -/
def ofDocument? (text : String) : Option Settings := do
  let source := Source.named (← read? text)
  return {
    orchestrator := ← source.setting "orchestrator" 0 readOrchestrator? .standard
    agent := ← source.setting "agent" 1 readAgent? .standard
    floors := ← source.setting "durations" 2 readFloors? (Floors.uniform 1000) }

/-- The settings in a file, which need not be there and need not be text. -/
def ofFile (bytes : Option (List UInt8)) : Settings :=
  ((bytes.bind Text.ofBytes?).bind ofDocument?).getD standard

/-! ## Variables -/

/-- An unsigned integer below a limit: digits, with an optional plus. -/
def unsigned? (limit : Nat) (text : String) : Option Nat :=
  let digits :=
    match text.toList with
    | '+' :: rest => rest
    | all => all
  let n := digitsValue digits
  if !digits.isEmpty && digits.all Char.isDigit && n < limit then some n else none

/-- The names of the variables that count. -/
def variableNames : List String :=
  ["COMPUTING_POWER", "TIME_ADDITION_MS", "TIME_SUBTRACTION_MS", "TIME_MULTIPLICATIONS_MS",
    "TIME_DIVISIONS_MS", "TIME_POWER_MS", "TIME_NEGATION_MS"]

/-- The value of a variable, blanks around it aside, or a default. -/
def fromVariable (environment : String → Option String) (name : String) (default : Nat) : Nat :=
  ((environment name).bind fun text => unsigned? UInt64.size (Text.trim text)).getD default

/-- The settings with what the environment says. -/
def withEnvironment (environment : String → Option String) (s : Settings) : Settings :=
  let value := fromVariable environment
  { s with
    agent.computingPower := value "COMPUTING_POWER" s.agent.computingPower
    floors := {
      addition := value "TIME_ADDITION_MS" s.floors.addition
      subtraction := value "TIME_SUBTRACTION_MS" s.floors.subtraction
      multiplication := value "TIME_MULTIPLICATIONS_MS" s.floors.multiplication
      division := value "TIME_DIVISIONS_MS" s.floors.division
      power := value "TIME_POWER_MS" s.floors.power
      negation := value "TIME_NEGATION_MS" s.floors.negation } }

/-- The settings from a file and the environment. -/
def load (file : Option (List UInt8)) (environment : String → Option String) : Settings :=
  (ofFile file).withEnvironment environment

end Settings

end Reckoner
