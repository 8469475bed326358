import Reckoner.Expression
import Reckoner.Http.Error
import Reckoner.Json.Value

/-!
# What answers say

Answers in JSON come in an envelope: the data or the errors, some particulars of the request, and
where the data is found again.
-/

namespace Reckoner.Http

open Json (Value)

/-- The particulars of a request. -/
structure Visit where
  /-- When it is answered. -/
  now : Instant
  /-- A name of its own. -/
  requestId : String
  /-- How many milliseconds the answer took. -/
  elapsed : Nat
deriving DecidableEq, Repr

namespace Visit

/-- The name of a request from sixteen random bytes, in the form of a UUID of the fourth kind. -/
def nameOf (entropy : List UInt8) : String :=
  let marked := (entropy.modify 6 fun b => 0x40 + b % 0x10).modify 8 fun b => 0x80 + b % 0x40
  let digits := (Text.hex marked).toList
  let group (start count : Nat) : String := String.ofList ((digits.drop start).take count)
  "-".intercalate [group 0 8, group 8 4, group 12 4, group 16 4, group 20 12]

/-- The particulars as a value. -/
def view (visit : Visit) : Value :=
  .object [("request_id", .text visit.requestId), ("timestamp", .text visit.now.stored),
    ("response_time_ms", .natural visit.elapsed)]

/-- The envelope of data that is found under a path. -/
def envelope (visit : Visit) (path : String) (data : Value) : Value :=
  .object [("data", data), ("meta", visit.view), ("_links", .object [("self", .text path)])]

end Visit

/-- The envelope of an error. An error does not tell the name of its request, nor its time. -/
def Error.envelope (now : Instant) (e : Error) : Value :=
  .object [("data", .null), ("meta", Visit.view ⟨now, "", 0⟩),
    ("errors", .array [.object [("code", .text e.code), ("message", .text e.message)]])]

/-- An expression as its owner sees it. An empty error is left out. -/
def viewExpression (e : Expression) : Value :=
  .object (
    [("id", .integer e.id), ("expression", .text e.formula), ("status", .text e.status.text),
      ("result", .ofOption .number e.result)] ++
    (if e.error.isEmpty then [] else [("error", .text e.error)]) ++
    [("created_at", .text e.createdAt.stored), ("updated_at", .text e.updatedAt.stored)])

/-- What is said about the health of the orchestrator. -/
def viewHealth (version : String) (isReadable : Bool) : Value :=
  .object [("database", .text (if isReadable then "ok" else "unavailable")),
    ("status", .text (if isReadable then "ok" else "degraded")), ("version", .text version)]

end Reckoner.Http
