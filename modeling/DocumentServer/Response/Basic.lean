import DocumentServer.Document.Text
import DocumentServer.Http.Headers
import DocumentServer.Http.Status
import DocumentServer.Response.Error

/-! Responses whose body is known when they are built. Statuses that need more than a body, such as
redirects, have constructors of their own, which derive a header from what they are given and record
it as the detail of the response. -/
namespace DocumentServer

/-- The body of a response before it is encoded. -/
inductive Payload where
  /-- Sent as its compact text. -/
  | document (content : Document)
  /-- Sent as it is. -/
  | raw (data : Bytes)
  | empty

/-- What a status needs besides a body. -/
inductive Detail where
  | none
  | redirect (location : String)
  | methodNotAllowed (method : String) (allowed : List String)
  | legalBlock (link : String)
  deriving DecidableEq, Repr

structure Response where
  status : StatusCode
  headers : Headers
  payload : Payload
  detail : Detail

/-- What may be given to every kind of response. -/
structure ResponseOptions where
  content : Option Document := none
  headers : Headers := ∅
  status : Option Nat := none

/-- The cause of an error response. -/
structure ErrorReason where
  name : String
  details : Option String
  deriving DecidableEq, Repr

structure ErrorOptions where
  reason : Option ErrorReason := none
  content : KeyMap Document := ∅
  headers : Headers := ∅
  status : Option Nat := none

namespace Response

/-- A response of a status; the body is the empty object unless one is given. -/
def build (status : StatusCode) (content : Option Document) (headers : Headers) : Response :=
  let payload :=
    if emptyBodyCode status.val then .empty else .document (content.getD .emptyObject)
  { status, headers, payload, detail := .none }

/-- A code that was asked for, or else that of a well-known status. -/
def chooseStatus (asked : Option Nat) (default : Status) : Except ResponseError StatusCode :=
  match asked with
  | none => .ok default.statusCode
  | some code =>
    match StatusCode.ofNat? code with
    | some status => .ok status
    | none => .error (.statusOutOfRange code)

/-- A response of any status, 200 unless one is given. -/
def general (options : ResponseOptions) : Except ResponseError Response := do
  return build (← chooseStatus options.status .ok) options.content options.headers

/-- A response whose status is fixed, so that none may be given. -/
def fixed (status : Status) (options : ResponseOptions) : Except ResponseError Response :=
  match options.status with
  | some _ => .error (.statusFixed status.code)
  | none => .ok (build status.statusCode options.content options.headers)

/-- A response of a well-known status that needs nothing more. -/
def ofStatus (status : Status) (options : ResponseOptions) : Except ResponseError Response :=
  match status.shape with
  | .redirect => .error .missingLocation
  | .methodNotAllowed =>
    .error (.invalidArgument "405 responses are built with Response::method_not_allowed")
  | .legalBlock =>
    .error (.invalidArgument
      "451 responses are built with Response::unavailable_for_legal_reasons")
  | .plain | .emptyBody => fixed status options

def ok (content : Document) : Response := build Status.ok.statusCode (some content) ∅

def created (content : Document) : Response := build Status.created.statusCode (some content) ∅

def noContent : Response := build Status.noContent.statusCode none ∅

/-- The response with a header that its detail determines. -/
def withDetail (response : Response) (name value : String) (detail : Detail) : Response :=
  { response with headers := response.headers.insert name value, detail }

def redirect (status : Status) (location : String) (options : ResponseOptions) :
    Except ResponseError Response :=
  if status.shape ≠ .redirect then
    .error (.invalidArgument s!"{status.code} is not a redirect status")
  else if location = "" then .error .missingLocation
  else do
    return (← fixed status options).withDetail "Location" location (.redirect location)

def found (location : String) : Except ResponseError Response := redirect .found location {}

/-- The methods in capital letters and ascending order. -/
def normalizeMethods (methods : List String) : List String :=
  (methods.map Ascii.upper).mergeSort fun a b => decide (a ≤ b)

/-- A response of status 405, which lists the allowed methods. -/
def methodNotAllowed (method : String) (allowed : List String) (options : ResponseOptions) :
    Except ResponseError Response := do
  let allowed := normalizeMethods allowed
  return (← fixed .methodNotAllowed options).withDetail "Allow" (",".intercalate allowed)
    (.methodNotAllowed (Ascii.upper method) allowed)

/-- A response of status 451, which links to the demand. -/
def unavailableForLegalReasons (link : String) (options : ResponseOptions) :
    Except ResponseError Response := do
  return (← fixed .unavailableForLegalReasons options).withDetail "Link"
    ("<" ++ link ++ ">; rel=\"blocked-by\"") (.legalBlock link)

/-- The document of an error: its type and message, the reason if there is one, and the caller's
members under other names. -/
def errorDocument (content : KeyMap Document) (kind message : String)
    (reason : Option ErrorReason) : Document :=
  let content := content.insert "error"
    (.ofMembers [("type", .string kind), ("message", .string message)])
  match reason with
  | none => .object content.entries
  | some reason =>
    let details := reason.details.elim .null .string
    .object ((content.insert "reason" (.string reason.name)).insert "details" details).entries

/-- An error response, of status 500 unless one is given. -/
def error (kind message : String) (options : ErrorOptions) : Except ResponseError Response :=
  general {
    content := some (errorDocument options.content kind message options.reason)
    headers := options.headers
    status := some (options.status.getD Status.internalServerError.code) }

def errorStatus (status : Status) (kind message : String) : Response :=
  build status.statusCode (some (errorDocument ∅ kind message none)) ∅

/-- A response of literal bytes, of status 200 unless one is given. -/
def raw (data : Bytes) (headers : Headers) (status : Option Nat) :
    Except ResponseError Response := do
  let status ← chooseStatus status .ok
  let payload := if emptyBodyCode status.val then .empty else .raw data
  return { status, headers, payload, detail := .none }

def content? (response : Response) : Option Document :=
  match response.payload with
  | .document content => some content
  | _ => none

/-- Where a redirect points. -/
def location? (response : Response) : Option String :=
  match response.detail with
  | .redirect location => some location
  | _ => none

def body (response : Response) : Bytes :=
  match response.payload with
  | .document content => content.encode
  | .raw data => data
  | .empty => []

/-- How a response is shown in messages. -/
def display (response : Response) : String := s!"<Response {response.status.val}>"

end Response

end DocumentServer
