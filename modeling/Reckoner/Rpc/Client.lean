import Reckoner.Rpc.Address
import Reckoner.Rpc.Exchange
import Reckoner.Wire.Codec
import Reckoner.Worker.Link

/-!
# The worker's side of the exchange

A client posts to an orchestrator given by its address. What the orchestrator does with a request
is a function of the request and of its own state, so a client can be set against any server.
-/

namespace Reckoner.Rpc

/-- What becomes of a request on the other side, whose state is of type `σ`. -/
def Peer (σ : Type) : Type := Post → σ → Outcome × σ

/-- A client of an orchestrator. -/
structure Client where
  /-- The address in front of the paths, without slashes at its end. -/
  base : String
deriving DecidableEq, Repr

namespace Client

variable {σ : Type}

/-- The client for an address. -/
def ofAddress (address : String) : Client :=
  ⟨String.ofList (address.toList.reverse.dropWhile (· == '/')).reverse⟩

/-- The request to a path with a body, if the client has a proper address. -/
def post? (client : Client) (path : String) (body : List UInt8) : Option Post :=
  (target? (client.base ++ path)).map (⟨·, body⟩)

/-- The body of an answer that says that the request was met; otherwise the error. -/
def readOutcome : Outcome → Except TransportError (List UInt8)
  | .refused => .error (.request "connection refused")
  | .closed => .error (.request "connection closed before message completed")
  | .answered status body =>
    let body := if isBodiless status then [] else body
    if isProvisional status then .error (.request "connection closed before message completed")
    else if isSuccess status then .ok body
    else .error (.status status (Text.ofMarkedBytes body))

/-- Sends a request and reads what comes of it. -/
def call (client : Client) (path : String) (body : List UInt8) (peer : Peer σ) (state : σ) :
    Except TransportError (List UInt8) × σ :=
  match client.post? path body with
  | none => (.error (.request "invalid address"), state)
  | some post =>
    let (outcome, after) := peer post state
    (readOutcome outcome, after)

/-- The assignment in the body of an answer; none if it says that there is nothing to do. -/
def readAssignment (body : List UInt8) : Fetched :=
  match Assignment.decode? body with
  | none => .error (.codec "not an assignment")
  | some assignment => .ok (if assignment.isNone then none else some assignment)

/-- Asks for an assignment. -/
def fetch (client : Client) (peer : Peer σ) (state : σ) : Fetched × σ :=
  let (answer, after) := client.call fetchPath [] peer state
  (answer.bind readAssignment, after)

/-- Submits a report. -/
def submit (client : Client) (report : Report) (peer : Peer σ) (state : σ) : Submitted × σ :=
  let (answer, after) := client.call submitPath report.encode peer state
  (answer.map fun _ => (), after)

end Client

end Reckoner.Rpc
