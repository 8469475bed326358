import Reckoner.CommandLine.Command
import Reckoner.CommandLine.Listing
import Reckoner.Database.Users
import Reckoner.Product
import Reckoner.Service
import Reckoner.Settings
import Reckoner.Worker.Pool

/-!
# Carrying out commands

What a command prints and does to the database. A command that fails may have printed something
before; then it says why, and what is behind that.
-/

namespace Reckoner.CommandLine

/-- Why a command failed. -/
structure Failure where
  message : String
  /-- What is behind it. -/
  cause : Option String
deriving DecidableEq, Repr

/-- What is said about a failure. -/
def Failure.text (f : Failure) : String :=
  "Error: " ++ f.message ++ "\n" ++
    match f.cause with
    | some cause => "\nCaused by:\n    " ++ cause ++ "\n"
    | none => ""

/-- What a command printed, and whether it failed. -/
structure Outcome where
  output : String
  failure : Option Failure
deriving DecidableEq, Repr

namespace Outcome

/-- Lines were printed. -/
def printed (lines : List String) : Outcome := ⟨String.join (lines.map (· ++ "\n")), none⟩

/-- A value was printed. -/
def value (v : Json.Value) : Outcome := printed [v.pretty]

/-- Nothing was printed, and the command failed. -/
def failed (message : String) (cause : Option String) : Outcome := ⟨"", some ⟨message, cause⟩⟩

/-- The service failed. -/
def ofError (e : ExpressionError) : Outcome := failed e.message e.cause?

/-- The number that the program ends with. -/
def exitCode (outcome : Outcome) : Nat := if outcome.failure.isSome then 1 else 0

/-- What is said about the failure, if there is one. -/
def errorText (outcome : Outcome) : String := (outcome.failure.map Failure.text).getD ""

end Outcome

/-- What the outside world contributes to a command. -/
structure Surroundings where
  /-- The time. -/
  now : Instant
  /-- Random bytes for a key. -/
  entropy : List UInt8
deriving DecidableEq, Repr

/-! ## Formulas -/

/-- Shows the graph of a formula, or what is wrong with it. -/
def check (json : Bool) (formula : String) : Outcome :=
  match Formula.compile formula with
  | .ok graph =>
    if json then .value (graphValue graph).sortKeys
    else
      .printed ((graphTable graph).lines ++
        ["  ✓ " ++ toString graph.size ++ " task(s), root is #" ++ toString graph.root])
  | .error e =>
    let shown :=
      if json then Outcome.value (formulaErrorValue e).sortKeys
      else .printed ["  ✗ " ++ e.message ++ " (" ++ e.code ++ ")"]
    { shown with failure := some ⟨e.message, none⟩ }

/-! ## Commands on the database -/

/-- Adds a user. -/
def createUser (s : Surroundings) (json : Bool) (name : String) (db : Database) :
    Outcome × Database :=
  match db.createUser s.entropy name with
  | .error e => (.failed e.message none, db)
  | .ok (credentials, after) =>
    let id := credentials.userId
    let key := credentials.apiKey
    let shown :=
      if json then
        Outcome.value (Json.Value.object
          [("user_id", .integer id), ("name", .text name), ("api_key", .text key)]).sortKeys
      else
        .printed ["", "  ✓ Created user " ++ name ++ " (id " ++ toString id ++ ")", "",
          "  🔑 API key (save this -- it won't be shown again):", "", "  " ++ key, ""]
    (shown, after)

/-- Submits a formula. -/
def submit (s : Surroundings) (json : Bool) (user : UserId) (formula : String) (db : Database) :
    Reply Outcome Database :=
  let reply := Service.submit Database.store s.now user formula db
  let outcome : Outcome :=
    match reply.answer with
    | .error e => .ofError e
    | .ok e =>
      if json then .value (expressionValue e)
      else .printed ["  ✓ Submitted expression " ++ toString e.id ++ " (" ++ e.formula ++ ")"]
  ⟨outcome, reply.events, reply.state⟩

/-- Lists the expressions of a user. -/
def list (json : Bool) (user : UserId) (db : Database) : Outcome :=
  match Service.list Database.store user db with
  | .error e => .ofError e
  | .ok expressions =>
    if json then .value (.array (expressions.map expressionValue))
    else if expressions.isEmpty then
      .printed ["", "  i No expressions yet. Submit one with " ++ productName ++
        " submit \"2 + 2\" --user <id>", ""]
    else
      .printed ((expressionTable expressions).lines ++
        ["  " ++ toString expressions.length ++ " expression(s)"])

/-- The lines about one expression and its tasks. -/
def detailLines (e : Expression) (tasks : List Task) : List String :=
  let ending :=
    match e.status with
    | .completed => ["  Result: " ++ outcomeText e]
    | .error => ["  Error:  " ++ e.error]
    | _ => []
  ["", "  " ++ e.formula, "", "  ID:   " ++ toString e.id, "  Status: " ++ e.status.text] ++
    ending ++ (if tasks.isEmpty then [] else "" :: (taskTable tasks).lines) ++ [""]

/-- Shows an expression and its tasks. -/
def inspect (json : Bool) (user : UserId) (id : ExpressionId) (db : Database) : Outcome :=
  let found := do
    let e ← Service.get Database.store user id db
    let tasks ← Service.tasks Database.store user id db
    return (e, tasks)
  match found with
  | .error e => .ofError e
  | .ok (e, tasks) =>
    if json then
      .value (Json.Value.object
        [("expression", expressionValue e), ("tasks", .array (tasks.map taskValue))]).sortKeys
    else .printed (detailLines e tasks)

/-! ## Roles -/

/-- What the orchestrator prints once it listens. -/
def serveGreeting (host : String) (port : Nat) : List String :=
  ["  ⚡ " ++ productName ++ " orchestrator listening on http://" ++ host ++ ":" ++ toString port,
    "  Press Ctrl+C to stop"]

/-- What the orchestrator prints at its end. -/
def serveFarewell : List String := ["", "  Server stopped."]

/-- What the orchestrator prints from its start to its end. -/
def serve (host : String) (port : Nat) : Outcome :=
  .printed (serveGreeting host port ++ serveFarewell)

/-- What a pool of workers prints once it runs. -/
def agentGreeting (url : String) (power : Nat) : List String :=
  ["  ⚙ " ++ productName ++ " agent with " ++ toString power ++ " worker(s) polling " ++ url]

/-- What a pool of workers prints at its end. -/
def agentFarewell : List String := ["", "  Agent stopped."]

/-- Runs a pool of workers over a link to its end. -/
def runAgent {σ : Type} (c : Circumstances) (link : Link σ) (url : String) (power : Nat)
    (state : σ) : Outcome × Run σ :=
  (.printed (agentGreeting url power ++ agentFarewell), Pool.run c link power state)

/-- Carries out a command. The roles are told to stop before they have done anything. -/
def Invocation.run (s : Surroundings) (settings : Settings) (invocation : Invocation)
    (db : Database) : Reply Outcome Database :=
  let json := invocation.flags.json
  let silent (outcome : Outcome) : Reply Outcome Database := ⟨outcome, [], db⟩
  match invocation.command with
  | .check formula => silent (check json formula)
  | .createUser name =>
    let (outcome, after) := createUser s json name db
    ⟨outcome, [], after⟩
  | .submit formula user => submit s json user formula db
  | .list user => silent (list json user db)
  | .inspect id user => silent (inspect json user id db)
  | .serve port host =>
    silent (serve (host.getD settings.orchestrator.host)
      (port.getD settings.orchestrator.port))
  | .agent url power =>
    let (outcome, run) := runAgent ⟨Arithmetic.ieee, settings.pace, 0⟩ Script.link
      (url.getD settings.agent.orchestratorUrl) (power.getD settings.agent.computingPower)
      (⟨[], []⟩ : Script)
    ⟨outcome, run.moments.filterMap fun m => m.deed.event?, db⟩

end Reckoner.CommandLine
