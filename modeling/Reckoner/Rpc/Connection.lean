import Reckoner.Rpc.Client
import Reckoner.Rpc.Transcript
import Std.Async.DNS
import Std.Async.TCP

/-!
# Exchanges over the network

A client that posts over a connection of its own for every request.
-/

namespace Reckoner.Rpc

open Std.Async

/-- All that arrives until the other side has closed the connection. -/
def receiveAll (socket : TCP.Socket.Client) : Async (List UInt8) := do
  let mut received := ByteArray.empty
  repeat
    match ← socket.recv? 65536 with
    | some chunk => received := received ++ chunk
    | none => break
  return received.toList

/-- A connection to a host, under one of its addresses. -/
def connect (location : Location) : Async TCP.Socket.Client := do
  let addresses ← DNS.getAddrInfo location.host (toString location.port)
  let port := location.port.toUInt16
  for address in addresses do
    try
      let socket ← TCP.Socket.Client.mk
      match address with
      | .v4 host => socket.connect (.v4 ⟨host, port⟩)
      | .v6 host => socket.connect (.v6 ⟨host, port⟩)
      return socket
    catch _ => continue
  throw (IO.userError "connection refused")

/-- Posts over a connection. -/
def converse (socket : TCP.Socket.Client) (request : List UInt8) : IO Outcome := do
  try
    (socket.send ⟨request.toArray⟩).block
    return Outcome.ofBytes (← (receiveAll socket).block)
  catch _ => return .closed

/-- Posts to a location. -/
def exchange (location : Location) (post : Post) : IO Outcome := do
  match ← (connect location).block.toBaseIO with
  | .error _ => return .refused
  | .ok socket => converse socket (post.toBytes (location.host ++ ":" ++ toString location.port))

namespace Client

/-- What comes of a request to a path; without a proper address there is no connection. -/
def send (client : Client) (path : String) (body : List UInt8) : IO Outcome :=
  match locate? (client.base ++ path) with
  | some location => exchange location ⟨location.target, body⟩
  | none => return .refused

/-- Asks for an assignment over the network. -/
def fetchRemotely (client : Client) : IO Fetched := do
  let outcome ← client.send fetchPath []
  return (client.fetch (fun _ _ => (outcome, ())) ()).1

/-- Submits a report over the network. -/
def submitRemotely (client : Client) (report : Report) : IO Submitted := do
  let outcome ← client.send submitPath report.encode
  return (client.submit report (fun _ _ => (outcome, ())) ()).1

end Client

end Reckoner.Rpc
