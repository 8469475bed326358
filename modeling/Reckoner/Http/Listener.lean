import Reckoner.Http.Router
import Reckoner.Shutdown
import Std.Async.DNS
import Std.Http.Server

/-!
# Listening

The routes behind a port. A request is read in full, answered by the routes, and the answer is
sent; how requests share the database is left to the caller.
-/

namespace Reckoner.Http

open Std.Async

/-- What answers requests; the number is when the request began to come in, in milliseconds. -/
structure Listener where
  answer : Nat → Request → IO Response

/-- A request as the routes see it. -/
def Request.ofHead (head : Std.Http.Request.Head) (content : ByteArray) : Request where
  method := toString head.method
  target := toString head.uri
  headers := head.headers.toList.map fun (name, value) => (name.value, Text.toBytes value.value)
  body := content.toList

/-- The status and the headers of an answer as they are sent. -/
def Response.head (response : Response) : Std.Http.Response.Builder :=
  let status := (Std.Http.Status.ofCode none response.status.toUInt16).getD .internalServerError
  response.headers.foldl (fun builder (name, value) => (builder.header? name value).getD builder)
    (Std.Http.Response.new.status status)

instance : Std.Http.Server.Handler Listener where
  onRequest listener request := do
    let start ← IO.monoMsNow
    let content : ByteArray ← request.body.readAll
    let response ← listener.answer start (Request.ofHead request.line content)
    let body ← Std.Http.Body.Full.ofByteArray ⟨response.body.toBytes.toArray⟩
    return response.head.body body

/-- The address with this name and port. -/
def resolve (host : String) (port : Nat) : Async Std.Net.SocketAddress := do
  let addresses ← DNS.getAddrInfo host (toString port)
  match addresses.toList with
  | .v4 address :: _ => return .v4 ⟨address, port.toUInt16⟩
  | .v6 address :: _ => return .v6 ⟨address, port.toUInt16⟩
  | [] => throw (IO.userError "the host is not known")

/-- Answers requests to an address until the program is told to stop; `ready` is done once the
port is open. -/
def listen (host : String) (port : Nat) (ready : IO Unit) (listener : Listener) : IO Unit :=
  Async.block do
    let server ← Std.Http.Server.serve (← resolve host port) listener
    ready
    waitForShutdown
    server.shutdownAndWait

end Reckoner.Http
