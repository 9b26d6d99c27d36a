import DocumentServer.Application
import DocumentServer.Gateway.Work

/-! What the server does for a request. Every handler gives a reply, or an error response in place
of it. A request for something that is not registered fails before its method is looked at when it
is about an object, and after that otherwise. -/
namespace DocumentServer.Handlers

/-! ### Error responses -/

/-- The response to a request that failed for a reason of the server's own. -/
def serverError (text : String) : Response :=
  .errorStatus .internalServerError "ServerError" text

def dbError : DbError → Response
  | .notFound name => .errorStatus .notFound "NotFound" name
  | error => serverError error.message

/-- The response to a method that is not offered. -/
def notAllowed (method : String) (allowed : List String) : Response :=
  match Response.methodNotAllowed method allowed {} with
  | .ok response => response
  | .error error => serverError error.message

def readOnly : List String := ["GET"]

def objectMethods : List String := ["GET", "PUT", "DELETE"]

/-! ### Databases -/

def listDatabases (app : Application) (method : String) : HandlerResult :=
  if method ≠ "GET" then .error (notAllowed method readOnly)
  else .ok (.full (.ok (.ofMembers [("databases", .array (app.names.map .string))])))

def databaseInfo (app : Application) (method name : String) : HandlerResult × Application :=
  if method ≠ "GET" then (.error (notAllowed method readOnly), app)
  else
    match app.getItem name with
    | .error error => (.error (dbError error), app)
    | .ok database =>
      app.update database fun store =>
        (.ok (.full (.ok (.ofMembers [
          ("id", .string database.id),
          ("length", .integer store.size)]))), store)

/-! ### Items -/

/-- The content type of a list with one document on each line. -/
def linesContentType : String := "application/x-ndjson"

/-- The document of an item, or of the error in its place. -/
def itemDocument : StoreItem → Document
  | .ok (key, value) => .ofMembers [("key", .string key), ("value", value)]
  | .error error => Response.errorDocument ∅ "ServerError" error.message none

def itemLine (item : StoreItem) : Bytes := .ofString ((itemDocument item).text.push '\n')

/-- Writes items until one can not be sent, and no further than to the first error, which is told
from the document that was written. -/
def writeItems : List StoreItem → Stream → Lines → Stream × Lines
  | [], stream, lines => (stream, lines)
  | item :: rest, stream, lines =>
    match stream.write .untilDone (itemLine item) lines with
    | (.done _, stream, lines) =>
      if ((itemDocument item).member? "error").isSome then (stream, lines)
      else writeItems rest stream lines
    | (_, stream, lines) => (stream, lines)

/-- Sends items as a stream with the given number. It is closed whatever becomes of the items. A
call that is waited for to its end is never given up, so the last case does not arise. -/
def sendItems (id : Nat) (request : Request) (items : List StoreItem) (lines : Lines) :
    HandlerResult × Lines :=
  match Stream.build id Status.ok.code ∅ with
  | .error error => (.error (serverError error.message), lines)
  | .ok stream =>
    let stream := { stream with contentType := some linesContentType }
    match stream.prepare .untilDone request lines with
    | (.done _, stream, lines) =>
      let (stream, lines) := writeItems items stream lines
      let (_, stream, lines) := stream.writeEnd .untilDone [] lines
      (.ok (.stream stream), lines)
    | (.failed error, _, lines) => (.error (serverError error.message), lines)
    | (.cancelled, stream, lines) => (.ok (.stream stream), lines)

/-- Every object of a database, one on each line. -/
def streamItems (app : Application) (method name : String) (request : Request) (lines : Lines) :
    HandlerResult × Application × Lines :=
  if method ≠ "GET" then (.error (notAllowed method readOnly), app, lines)
  else
    match app.getItem name with
    | .error error => (.error (dbError error), app, lines)
    | .ok database =>
      let (items, app) := app.update database fun store => (Paging.allItems store, store)
      let (result, lines) := sendItems app.streams request items lines
      (result, { app with streams := app.streams + 1 }, lines)

/-! ### Objects -/

def objectNotFound (name key : String) : Response := dbError (.notFound s!"{name}/{key}")

def objectId (key : String) : Document := .ofMembers [("id", .string key)]

def getObject (name key : String) : Work :=
  .get key fun
    | .error error => .reply (.error (dbError error))
    | .ok none => .reply (.error (objectNotFound name key))
    | .ok (some value) => .reply (.ok (.full (.ok value)))

def putObject (key : String) (body : Bytes) : Work :=
  match Document.decode body with
  | .error fault =>
    .reply (.error (.errorStatus .badRequest "DeserializationError" (fault.message body)))
  | .ok value =>
    .contains key fun existed =>
      .put key value (.reply (.ok (.full
        (if existed then .ok (objectId key) else .created (objectId key)))))

def deleteObject (name key : String) : Work :=
  .delete key fun
    | .error (.notFound _) => .reply (.error (objectNotFound name key))
    | .error error => .reply (.error (dbError error))
    | .ok _ => .reply (.ok (.full .noContent))

/-- What is done for a request about an object of a database. -/
def objectWork (method name key : String) (body : Bytes) : Work :=
  if method = "GET" then getObject name key
  else if method = "PUT" then putObject key body
  else if method = "DELETE" then deleteObject name key
  else .reply (.error (notAllowed method objectMethods))

def object (app : Application) (method name key : String) (body : Bytes) :
    HandlerResult × Application :=
  match app.getItem name with
  | .error error => (.error (dbError error), app)
  | .ok database => app.update database ((objectWork method name key body).run ·)

end DocumentServer.Handlers
