import Reckoner.Database.Users
import Reckoner.Http.Error
import Reckoner.Http.Message
import Reckoner.Text.Blank

/-!
# Who sends a request

A request carries a key in one of two headers; the key tells the user. The header for bearers goes
first, unless it holds something else than a bearer's key.
-/

namespace Reckoner.Http

/-- The key behind the word for bearers. -/
def bearerKey? (text : String) : Option String :=
  let word := "Bearer "
  if word.toList.isPrefixOf text.toList then
    some (Text.trim (String.ofList (text.toList.drop word.length)))
  else none

/-- The key in the header for keys. -/
def plainKey (request : Request) : Except Error String :=
  match request.header? "x-api-key" with
  | some value =>
    match headerText? value with
    | some text => .ok (Text.trim text)
    | none => .error (.unauthorized "Invalid X-API-Key header encoding")
  | none =>
    .error (.unauthorized ("Missing API key. Provide via 'Authorization: Bearer <key>' or " ++
      "'X-API-Key: <key>' header."))

/-- The key that a request carries. -/
def keyOf (request : Request) : Except Error String :=
  match request.header? "authorization" with
  | some value =>
    match headerText? value with
    | some text =>
      match bearerKey? text with
      | some key => .ok key
      | none => plainKey request
    | none => .error (.unauthorized "Invalid Authorization header encoding")
  | none => plainKey request

/-- The user who sends a request. -/
def authenticate (now : Instant) (request : Request) (db : Database) :
    Except Error UserId × Database :=
  match keyOf request with
  | .error e => (.error e, db)
  | .ok key =>
    match db.authenticate now key with
    | (.error e, after) => (.error (.internal ("Database error: " ++ e.message)), after)
    | (.ok (some user), after) => (.ok user, after)
    | (.ok none, after) =>
      (.error (.unauthorized ("Invalid API key. Provide a valid key via 'Authorization: Bearer " ++
        "<key>' or 'X-API-Key: <key>' header.")), after)

end Reckoner.Http
