import Reckoner.Rpc.Exchange
import Reckoner.Text.Hex
import Reckoner.Text.Utf8

/-!
# Routes

Which paths there are and by which methods they are asked for. A path is compared as it was sent,
only the number of an expression is decoded.
-/

namespace Reckoner.Http

/-- What a path leads to. -/
inductive Route where
  /-- Submits a formula. -/
  | calculate
  /-- Lists expressions. -/
  | expressions
  /-- Shows the expression with a number, which stands in the path. -/
  | expression (segment : String)
  | health
  /-- Hands a task to a worker. -/
  | fetchTask
  /-- Takes the report of a worker. -/
  | submitResult
deriving DecidableEq, Repr

/-- The path of the list of expressions. -/
def expressionsPath : String := "/api/v1/expressions"

/-- The path of an expression. -/
def expressionPath (id : Int) : String := expressionsPath ++ "/" ++ toString id

namespace Route

/-- The last segment of a path that is below another one. -/
def segmentBelow? (parent path : String) : Option String :=
  let front := parent.toList ++ ['/']
  let segment := path.toList.drop front.length
  if front.isPrefixOf path.toList && !segment.isEmpty && !segment.contains '/' then
    some (String.ofList segment)
  else none

/-- The route of a path. -/
def ofPath? (path : String) : Option Route :=
  if path = "/api/v1/calculate" then some calculate
  else if path = expressionsPath then some expressions
  else if path = "/api/v1/health" then some health
  else if path = Rpc.fetchPath then some fetchTask
  else if path = Rpc.submitPath then some submitResult
  else (segmentBelow? expressionsPath path).map expression

/-- Whether a route only reads. -/
def isReading : Route → Bool
  | expressions | expression _ | health => true
  | _ => false

/-- The methods by which a route is asked for. -/
def methods (route : Route) : List String := if route.isReading then ["GET", "HEAD"] else ["POST"]

end Route

/-- The bytes of a text in which a percent sign and two digits stand for a byte. -/
def percentDecode : List Char → List UInt8
  | '%' :: a :: b :: rest =>
    match Text.hexNumber? [a, b] with
    | some n => n.toUInt8 :: percentDecode rest
    | none => Text.toBytes "%" ++ percentDecode (a :: b :: rest)
  | c :: rest => Text.toBytes c.toString ++ percentDecode rest
  | [] => []

/-- The text of a segment. -/
def decodeSegment? (segment : String) : Option String :=
  Text.ofBytes? (percentDecode segment.toList)

end Reckoner.Http
