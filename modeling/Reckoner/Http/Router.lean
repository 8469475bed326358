import Reckoner.Http.Authentication
import Reckoner.Http.MediaType
import Reckoner.Http.Route
import Reckoner.Http.Submission
import Reckoner.Http.View
import Reckoner.Number.Integer
import Reckoner.Product
import Reckoner.Rpc.Server
import Reckoner.Service

/-!
# The orchestrator over HTTP

Every request is answered. Users must show a key before anything else of their request is looked
at; workers need none. Scripts from anywhere may ask, and every request for options is granted.
-/

namespace Reckoner.Http

variable {α : Type}

/-- An answer without events. -/
def silent (response : Response) (db : Database) : Reply Response Database := ⟨response, [], db⟩

/-- The answer to a request that failed. -/
def Error.respond (now : Instant) (e : Error) : Response :=
  Response.ofJson e.status (e.envelope now)

/-- Goes on with the user who sends a request. -/
def withUser (visit : Visit) (request : Request) (db : Database)
    (f : UserId → Database → Reply Response Database) : Reply Response Database :=
  match authenticate visit.now request db with
  | (.ok user, db) => f user db
  | (.error e, db) => silent (e.respond visit.now) db

/-- Whether a request says that its body is JSON. -/
def Request.hasJson (request : Request) : Bool :=
  ((request.header? "content-type").bind headerText?).any isJsonType

/-- Whether the body of a request is too long to be read. -/
def Request.isTooLong (request : Request) : Bool := Rpc.bodyLimit < request.body.length

/-- The answer to a request whose body is too long. -/
def Response.tooLong : Response := .rejection 413 "the body is too long"

/-- Submits the formula in a request. -/
def submit (visit : Visit) (request : Request) (user : UserId) (db : Database) :
    Reply Response Database :=
  if !request.hasJson then silent (.rejection 415 "expected a body of JSON") db
  else if request.isTooLong then silent .tooLong db
  else
    match readSubmission request.body with
    | .error .malformed => silent (.rejection 400 "the body is not JSON") db
    | .error .mismatched => silent (.rejection 422 "the body holds no formula") db
    | .ok formula =>
      let reply := Service.submit Database.store visit.now user formula db
      let response :=
        match reply.answer with
        | .ok e =>
          Response.ofJson 201
            (visit.envelope (expressionPath e.id) (.object [("id", .integer e.id)]))
        | .error e => Error.respond visit.now (.expression e)
      ⟨response, reply.events, reply.state⟩

/-- The answer that an outcome of the service makes. -/
def respond (visit : Visit) (path : String) (view : α → Json.Value) :
    Except ExpressionError α → Response
  | .ok value => .ofJson 200 (visit.envelope path (view value))
  | .error e => Error.respond visit.now (.expression e)

/-- Lists the expressions of a user. -/
def list (visit : Visit) (user : UserId) (db : Database) : Response :=
  respond visit expressionsPath (fun es => .array (es.map viewExpression))
    (Service.list Database.store user db)

/-- Shows the expression whose number stands in a path. -/
def get (visit : Visit) (segment : String) (user : UserId) (db : Database) : Response :=
  match (decodeSegment? segment).bind signedWordOf? with
  | none => .rejection 400 "the path holds no number"
  | some id => respond visit (expressionPath id) viewExpression
    (Service.get Database.store user id db)

/-- Says whether the database can be read. -/
def health (db : Database) : Response :=
  .ofJson (if db.readable then 200 else 503) (viewHealth productVersion db.readable)

/-- The answer of an endpoint for workers. -/
def ofRpcAnswer : Rpc.Answer → Response
  | .message body => .withType 200 Rpc.contentType (.bytes body)
  | .refusal status text => .withType status "text/plain" (.text text)

/-- Lets a worker's call act on the database. -/
def runCall (visit : Visit) (call : Call Rpc.Answer) (db : Database) : Reply Response Database :=
  let reply := call.run (Database.store.handle visit.now) (Transacted.of db)
  ⟨ofRpcAnswer reply.answer, reply.events, reply.state.committed⟩

/-- Answers a request that leads somewhere, by a method of its route. -/
def Route.run (visit : Visit) (request : Request) (db : Database) :
    Route → Reply Response Database
  | calculate => withUser visit request db (submit visit request)
  | expressions => withUser visit request db fun user db => silent (list visit user db) db
  | expression segment =>
    withUser visit request db fun user db => silent (get visit segment user db) db
  | health => silent (Http.health db) db
  | fetchTask => runCall visit Rpc.fetchTask db
  | submitResult =>
    if request.isTooLong then silent .tooLong db
    else runCall visit (Rpc.submitResult request.body) db

/-- The header that names the methods of a route. -/
def Route.allow (route : Route) : String × String := ("allow", ",".intercalate route.methods)

/-- Answers a request, whatever it asks for. -/
def dispatch (visit : Visit) (request : Request) (db : Database) : Reply Response Database :=
  match Route.ofPath? request.path with
  | none => silent (.bare 404) db
  | some route =>
    if route.methods.contains request.method then route.run visit request db
    else silent ((Response.bare 405).addHeaders [route.allow]) db

/-- The answer to a request for options. -/
def options (request : Request) : Response :=
  (Response.bare 200).addHeaders
    ([("access-control-allow-methods", "*"), ("access-control-allow-headers", "*")] ++
      ((Route.ofPath? request.path).map Route.allow).toList)

/-- Answers a request. -/
def serve (visit : Visit) (request : Request) (db : Database) : Reply Response Database :=
  let reply :=
    if request.method = "OPTIONS" then silent (options request) db
    else dispatch visit request db
  let response := reply.answer.addHeaders [("access-control-allow-origin", "*")]
  { reply with answer := if request.method = "HEAD" then response.withoutBody else response }

end Reckoner.Http
