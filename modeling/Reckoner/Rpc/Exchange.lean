import Reckoner.Product

/-!
# Exchanges between workers and the orchestrator

Workers post to two paths of the orchestrator. What comes of a request is an answer, a connection
that is closed without one, or no connection at all.
-/

namespace Reckoner.Rpc

/-- Where an assignment is fetched. -/
def fetchPath : String := "/rpc/v1/get-task"

/-- Where a report is submitted. -/
def submitPath : String := "/rpc/v1/submit-result"

/-- The content type of both messages. -/
def contentType : String := "application/msgpack"

/-- How workers introduce themselves. -/
def userAgent : String := productName ++ "-agent/" ++ productVersion

/-- How many bytes of a request's body the orchestrator reads; a longer body is refused. -/
def bodyLimit : Nat := 0x200000

/-- A request of a worker. -/
structure Post where
  /-- The path and the query that are asked for. -/
  target : String
  /-- What is sent. -/
  body : List UInt8
deriving DecidableEq, Repr

/-- The first line of a request. -/
def Post.line (post : Post) : String := "POST " ++ post.target ++ " HTTP/1.1"

/-- What comes of a request. -/
inductive Outcome where
  /-- There was no connection, so nothing was sent. -/
  | refused
  /-- The connection was closed without an answer. -/
  | closed
  | answered (status : Nat) (body : List UInt8)
deriving DecidableEq, Repr

/-- Whether a status comes with no body, whatever is sent behind it. -/
def isBodiless (status : Nat) : Bool := status == 101 || status == 204 || status == 304

/-- Whether a status only announces the answer. -/
def isProvisional (status : Nat) : Bool := 100 ≤ status && status < 200 && status != 101

/-- Whether a status says that the request was met. -/
def isSuccess (status : Nat) : Bool := 200 ≤ status && status < 300

end Reckoner.Rpc
