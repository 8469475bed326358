import Reckoner.Rpc.Client
import Reckoner.Scheduler

/-!
# The orchestrator's side of the exchange

The two endpoints hand out assignments and take reports. A failure of the scheduler is answered by
a server error, so that the worker tries again; a body that is no report, or is too long to be
read, is refused and changes nothing.
-/

namespace Reckoner.Rpc

/-- An answer of an endpoint: a message, or a sentence for people. -/
inductive Answer where
  | message (body : List UInt8)
  | refusal (status : Nat) (text : String)
deriving DecidableEq, Repr

namespace Answer

/-- The status of an answer. -/
def status : Answer → Nat
  | message _ => 200
  | refusal status _ => status

/-- The body of an answer. -/
def body : Answer → List UInt8
  | message body => body
  | refusal _ text => Text.toBytes text

/-- The answer to a scheduler call that failed. -/
def ofError (e : SchedulerError) : Answer := refusal 500 e.message

end Answer

/-- Claims a task and answers its assignment. -/
def fetchTask : Call Answer := do
  match ← Scheduler.readTask with
  | .error e => pure (.ofError e)
  | .ok none => pure (.message Assignment.none.encode)
  | .ok (some task) => pure (.message (Assignment.ofTask task).encode)

/-- Takes the report in a body. -/
def submitResult (body : List UInt8) : Call Answer :=
  match Report.decode? body with
  | none => pure (.refusal 400 (TransportError.codec "not a report").message)
  | some report => do
    match ← Scheduler.completeTask report with
    | .error e => pure (.ofError e)
    | .ok _ => pure (.message [])

/-- Refuses a body that is too long. -/
def Answer.tooLong : Answer :=
  refusal 413 "Failed to buffer the request body: length limit exceeded"

/-- The call behind a path. -/
def endpoint? (path : String) (body : List UInt8) : Option (Call Answer) :=
  if path = fetchPath then some fetchTask
  else if path = submitPath then
    some (if bodyLimit < body.length then pure .tooLong else submitResult body)
  else none

/-- The orchestrator as seen by a client: bodies arrive as they were sent, and those that are not
too long are read. -/
def serve {σ : Type} (handle : Handler σ) : Peer σ := fun post state =>
  match endpoint? post.target post.body with
  | none => (.answered 404 [], state)
  | some call =>
    let reply := call.run handle state
    (.answered reply.answer.status reply.answer.body, reply.state)

end Reckoner.Rpc
