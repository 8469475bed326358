import Reckoner.Event
import Reckoner.Instant
import Reckoner.Json.Value

/-!
# The log

How an event is written into the log: as a line for people, or as an object in JSON.
-/

namespace Reckoner.Event

/-- The line of an event. -/
def line (now : Instant) (e : Event) : String :=
  let fields := e.fields.map fun (name, value) => " " ++ name ++ "=" ++ value
  now.zulu ++ "  " ++ e.level.name ++ " " ++ e.message ++ String.join fields

/-- The object of an event. -/
def object (now : Instant) (e : Event) : Json.Value :=
  let fields := e.fields.map fun (name, value) => (name, Json.Value.text value)
  .object [("timestamp", .text now.zulu), ("level", .text e.level.name),
    ("fields", .object (("message", .text e.message) :: fields))]

end Reckoner.Event
