import Reckoner.CommandLine.Help
import Reckoner.CommandLine.Run
import Reckoner.Database.Keeper
import Reckoner.Http.Listener
import Reckoner.Log
import Reckoner.Rpc.Connection
import Reckoner.Worker.Live
import Std.Time.DateTime.Timestamp

/-!
# The program

Everything that is done to the world: arguments and variables are read, files are kept, ports are
opened, and what the commands say is printed. What is said and done is decided elsewhere.
-/

namespace Reckoner

open CommandLine

/-- The time. -/
def currentInstant : IO Instant := do
  let now ← Std.Time.Timestamp.now
  let n := now.toNanosecondsSinceUnixEpoch.toInt
  return ⟨n.fdiv 1000000000, (n.fmod 1000000000).toNat⟩

/-- Random bytes. -/
def randomBytes (count : Nat) : IO (List UInt8) := return (← IO.getRandomBytes count.toUSize).toList

/-- What the world contributes to a command. -/
def surroundings : IO Surroundings := return ⟨← currentInstant, ← randomBytes 32⟩

/-- The data directory. -/
def currentDirectory : IO String :=
  return dataDirectory (← IO.getEnv "EXPRFLOW_DATA_DIR") ((← IO.getEnv "HOME").getD "")

/-- The settings of a data directory. -/
def loadSettings (directory : String) : IO Settings := do
  let file ← (IO.FS.readBinFile (settingsPath directory)).toBaseIO
  let found ← Settings.variableNames.mapM fun name => return (name, ← IO.getEnv name)
  let environment (name : String) := (found.lookup name).join
  return Settings.load (file.toOption.map (·.toList)) environment

/-- Prints lines. -/
def printLines (lines : List String) : IO Unit := do
  lines.forM IO.println
  (← IO.getStdout).flush

/-- Writes an event to the log. -/
def writeLog (flags : Flags) (e : Event) : IO Unit := do
  if flags.verbose ≠ 0 || !flags.quiet then
    let now ← currentInstant
    printLines [if flags.logJson then (e.object now).compact else e.line now]

/-- Runs the orchestrator. -/
def runOrchestrator (flags : Flags) (directory host : String) (port : Nat) : IO UInt32 := do
  let answer (start : Nat) (request : Http.Request) : IO Http.Response := do
    let now ← currentInstant
    let requestId := Http.Visit.nameOf (← randomBytes 16)
    let visit : Http.Visit := ⟨now, requestId, (← IO.monoMsNow) - start⟩
    let (response, events) ← Database.act directory fun db =>
      let reply := Http.serve visit request db
      ((reply.answer, reply.events), reply.state)
    events.forM (writeLog flags)
    return response
  Http.listen host port (printLines (serveGreeting host port)) ⟨answer⟩
  printLines serveFarewell
  return 0

/-- Runs a pool of workers. -/
def runPool (flags : Flags) (pace : Pace) (url : String) (power : Nat) : IO UInt32 := do
  printLines (agentGreeting url power)
  let client := Rpc.Client.ofAddress url
  let shutdown ← IO.asTask waitForShutdown.block .dedicated
  let world : World :=
    { fetch := client.fetchRemotely
      submit := client.submitRemotely
      isCancelled := IO.hasFinished shutdown
      log := writeLog flags }
  world.runPool Arithmetic.ieee pace power
  printLines agentFarewell
  return 0

/-- Carries out a command that ends by itself. -/
def runOnce (invocation : Invocation) (settings : Settings) (directory : String) : IO UInt32 := do
  let now ← surroundings
  let (outcome, events) ←
    match invocation.command with
    | .check formula => pure (check invocation.flags.json formula, [])
    | _ => Database.act directory fun db =>
      let reply := invocation.run now settings db
      ((reply.answer, reply.events), reply.state)
  events.forM (writeLog invocation.flags)
  IO.print outcome.output
  IO.eprint outcome.errorText
  return outcome.exitCode.toUInt32

/-- Carries out what a command line asks for. -/
def carryOut (invocation : Invocation) : IO UInt32 := do
  let directory ← currentDirectory
  let settings ← loadSettings directory
  match invocation.command with
  | .serve port host =>
    runOrchestrator invocation.flags directory (host.getD settings.orchestrator.host)
      (port.getD settings.orchestrator.port)
  | .agent url power =>
    runPool invocation.flags settings.pace (url.getD settings.agent.orchestratorUrl)
      (power.getD settings.agent.computingPower)
  | _ => runOnce invocation settings directory

end Reckoner

open Reckoner in
/-- Runs the program. -/
def main (arguments : List String) : IO UInt32 := do
  match CommandLine.readArguments (← IO.getEnv "ORCHESTRATOR_URL") arguments with
  | .error stop =>
    IO.print stop.output
    IO.eprint stop.errorText
    return stop.exitCode.toUInt32
  | .ok invocation =>
    match ← (carryOut invocation).toBaseIO with
    | .ok code => return code
    | .error e =>
      IO.eprint (CommandLine.Failure.text ⟨toString e, none⟩)
      return 1
