import Reckoner.Json.Value
import Reckoner.Text.Utf8

/-!
# Requests and answers

What comes in and what goes out over HTTP, as far as anything depends on it. The name of a header
is read in any case; of several headers with one name, the first one counts.
-/

namespace Reckoner.Http

/-- A request. -/
structure Request where
  method : String
  /-- The path with the query. -/
  target : String
  /-- The headers with their values. -/
  headers : List (String × List UInt8)
  body : List UInt8
deriving DecidableEq, Repr

namespace Request

/-- The path that is asked for. -/
def path (request : Request) : String :=
  String.ofList (request.target.toList.takeWhile fun c => c != '?' && c != '#')

/-- The value of a header. -/
def header? (request : Request) (name : String) : Option (List UInt8) :=
  (request.headers.find? fun (n, _) => n.toLower == name).map (·.2)

end Request

/-- The text of a header's value: visible characters of ASCII, blanks and tabs. -/
def headerText? (value : List UInt8) : Option String :=
  if value.all fun b => b == 9 || (32 ≤ b && b < 127) then
    some (String.ofList (value.map fun b => Char.ofNat b.toNat))
  else none

/-- What an answer carries. -/
inductive Body where
  | none
  | json (value : Json.Value)
  | text (s : String)
  | bytes (content : List UInt8)

/-- The bytes that are sent. -/
def Body.toBytes : Body → List UInt8
  | none => []
  | json value => Text.toBytes value.compact
  | text s => Text.toBytes s
  | bytes content => content

/-- An answer. -/
structure Response where
  status : Nat
  /-- The headers with their values. -/
  headers : List (String × String)
  body : Body

namespace Response

/-- An answer that only has a status. -/
def bare (status : Nat) : Response := ⟨status, [], .none⟩

/-- An answer with a body of some type. -/
def withType (status : Nat) (type : String) (body : Body) : Response :=
  ⟨status, [("content-type", type)], body⟩

/-- An answer in JSON. -/
def ofJson (status : Nat) (value : Json.Value) : Response :=
  withType status "application/json" (.json value)

/-- A sentence about a request that cannot be read. -/
def rejection (status : Nat) (text : String) : Response :=
  withType status "text/plain; charset=utf-8" (.text text)

/-- The value of a header. -/
def header? (response : Response) (name : String) : Option String :=
  (response.headers.find? (·.1 == name)).map (·.2)

/-- The answer with further headers. -/
def addHeaders (response : Response) (headers : List (String × String)) : Response :=
  { response with headers := response.headers ++ headers }

/-- The answer without its body. -/
def withoutBody (response : Response) : Response := { response with body := .none }

end Response

end Reckoner.Http
