import DocumentServer.Gateway.Answer
import DocumentServer.Gateway.Handlers
import DocumentServer.Gateway.Route
import DocumentServer.Http.Connection

/-! The server as a whole: from a request to the answer that its client sees. What a handler sends
and what is sent for the reply that it gives make up one list of frames, from which the answer is
read. -/
namespace DocumentServer

structure HttpRequest where
  method : String
  /-- Where the request goes, with the query. -/
  address : String
  headers : List (Bytes × Bytes) := []
  body : Bytes := []

namespace HttpRequest

def path (http : HttpRequest) : String := Route.pathOf http.address

end HttpRequest

namespace Service

def requestFor (method path : String) (headers : List (Bytes × Bytes)) : Request :=
  { method, path, keepAlive := Connection.preference? headers, hook := [], line := 0 }

/-- Lines on which nothing was sent. -/
def freshLines : Lines := fun _ => .recorder

/-- The answer that ends with the reply of a handler, or with nothing more if the handler broke
down. -/
def conclude (result : Option HandlerResult) (request : Request) (lines : Lines) : Answer :=
  match result with
  | none => .ofFrames (lines request.line).frames
  | some result =>
    let (_, lines) := result.emit .untilDone request lines
    .ofFrames (lines request.line).frames

/-- The bytes that the body of a request about an object may have at most. -/
def bodyLimit : Nat := 2097152

def invalidPath (parameter : String) : Answer :=
  .plain 400 s!"Invalid URL: Invalid UTF-8 in `{parameter}`"

def bodyTooLong : Answer :=
  .plain 413 "Failed to buffer the request body: length limit exceeded"

def handle (app : Application) (http : HttpRequest) (route : Route) : Answer × Application :=
  let request := requestFor http.method http.path http.headers
  match route with
  | .databases =>
    (conclude (some (Handlers.listDatabases app http.method)) request freshLines, app)
  | .database name =>
    let (result, app) := Handlers.databaseInfo app http.method name
    (conclude (some result) request freshLines, app)
  | .items name =>
    let (result, app, lines) := Handlers.streamItems app http.method name request freshLines
    (conclude (some result) request lines, app)
  | .object name key =>
    if bodyLimit < http.body.length then (bodyTooLong, app)
    else
      let (result, app) := Handlers.object app http.method name key http.body
      (conclude (some result) request freshLines, app)

/-- Answers a request. An answer to HEAD has no body, but the headers that it would have with one.
-/
def respond (app : Application) (http : HttpRequest) : Answer × Application :=
  let (answer, app) :=
    match Route.ofPath http.path with
    | .error .unknown => (Answer.bare 404, app)
    | .error (.invalidText parameter) => (invalidPath parameter, app)
    | .ok route => handle app http route
  (if http.method = "HEAD" then answer.withoutBody else answer, app)

end Service

end DocumentServer
