import Reckoner.CommandLine.Arguments
import Reckoner.Task

/-!
# Commands

The commands of the program with their options, and what a command line asks for.
-/

namespace Reckoner.CommandLine

/-- What is to be done. -/
inductive Command where
  /-- Runs the orchestrator. -/
  | serve (port : Option Nat) (host : Option String)
  /-- Runs a pool of workers. -/
  | agent (orchestratorUrl : Option String) (computingPower : Option Nat)
  | createUser (name : String)
  | submit (formula : String) (user : UserId)
  | list (user : UserId)
  /-- Shows an expression and its tasks. -/
  | inspect (id : ExpressionId) (user : UserId)
  /-- Compiles a formula without storing it. -/
  | check (formula : String)
deriving DecidableEq, Repr

/-- How it is to be done. -/
structure Flags where
  json : Bool
  quiet : Bool
  logJson : Bool
  otel : Bool
  /-- How often more output was asked for. -/
  verbose : Nat
deriving DecidableEq, Repr

/-- What a command line asks for. -/
structure Invocation where
  flags : Flags
  command : Command
deriving DecidableEq, Repr

/-- An option or an argument that must be given. -/
def required (name : String) (kind : Kind) : Parameter := ⟨name, kind, none, true⟩

/-- An option that may be left out. -/
def optional (name : String) (kind : Kind) (letter : Option Char) : Parameter :=
  ⟨name, kind, letter, false⟩

/-- All commands with their options and arguments. -/
def grammar : Grammar :=
  .node [
    (["serve"], .leaf [optional "port" .port (some 'p'), optional "host" .text none] []),
    (["agent"], .leaf
      [optional "orchestrator-url" .text none, optional "computing-power" .word none] []),
    (["user"], .node [(["create"], .leaf [] [required "name" .text])]),
    (["submit"], .leaf [required "user" .integer] [required "expression" .text]),
    (["list", "ls"], .leaf [required "user" .integer] []),
    (["show"], .leaf [required "user" .integer] [required "id" .integer]),
    (["check"], .leaf [] [required "expression" .text])]

/-- How often a flag counts: as often as it was given on the innermost level that has it, at most
255 times. -/
def countOf (flag : Flag) (levels : List Level) : Nat :=
  let counts := levels.map fun level => level.flags.count flag
  min 255 ((counts.reverse.find? (· != 0)).getD 0)

/-- The flags of all levels. -/
def Flags.ofLevels (levels : List Level) : Flags :=
  let has (flag : Flag) : Bool := countOf flag levels != 0
  ⟨has .json, has .quiet, has .logJson, has .otel, countOf .verbose levels⟩

/-- The command that has been read; `address` is the orchestrator's address in the environment. -/
def Command.ofReading? (address : Option String) (reading : Reading) : Option Command := do
  let level ← reading.levels.getLast?
  let text? (name : String) : Option String := (level.values.find? (·.1 == name)).map (·.2)
  let integer? (name : String) : Option Int := (text? name).bind integerOf?
  let natural? (name : String) : Option Nat := (integer? name).map Int.toNat
  match reading.commands with
  | ["serve"] => some (.serve (natural? "port") (text? "host"))
  | ["agent"] =>
    some (.agent ((text? "orchestrator-url").or address) (natural? "computing-power"))
  | ["user", "create"] => return .createUser (← text? "name")
  | ["submit"] => return .submit (← text? "expression") (← integer? "user")
  | ["list"] => return .list (← integer? "user")
  | ["show"] => return .inspect (← integer? "id") (← integer? "user")
  | ["check"] => return .check (← text? "expression")
  | _ => none

/-- Reads a command line. -/
def readArguments (address : Option String) (arguments : List String) : Except Stop Invocation := do
  let reading ← readFrom grammar Level.start arguments
  match Command.ofReading? address reading with
  | some command => .ok ⟨Flags.ofLevels reading.levels, command⟩
  | none => .error .usage

/-- Which events are logged. -/
def Flags.logFilter (flags : Flags) : String :=
  match flags.verbose with
  | 0 => if flags.quiet then "error" else "warn,exprflow_api=info,exprflow_core=info"
  | 1 => "info,exprflow_core=debug,exprflow_infra=debug,exprflow_api=debug"
  | _ => "trace"

end Reckoner.CommandLine
