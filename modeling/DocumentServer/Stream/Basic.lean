import DocumentServer.Document.Basic
import DocumentServer.Http.Headers
import DocumentServer.Http.Status
import DocumentServer.Stream.Writer
import DocumentServer.Text.Quoted

/-! Responses whose body is produced while it is sent. A stream starts when it is prepared for a
request and closes with its final frame; status, headers and the other fields may be changed at any
time, but only what they are when the start frame leaves is sent. -/
namespace DocumentServer

/-- Values that stages of a pipeline pass along with a response. They are never sent. -/
abbrev Scratch := KeyMap Document

inductive ScratchEdit where
  | set (key : String) (value : Document)
  | erase (key : String)

def ScratchEdit.apply (scratch : Scratch) : ScratchEdit → Scratch
  | .set key value => scratch.insert key value
  | .erase key => scratch.erase key

/-- A change to a stream that sends nothing. -/
inductive StreamEdit where
  | status (code : Nat)
  | contentType (value : String)
  | contentLength (value : Nat)
  | keepAlive (value : Bool)
  | headers (edit : Headers.Edit)
  | scratch (edit : ScratchEdit)

/-- What a hook does to the stream that is about to start. -/
inductive HookStep where
  /-- Refuses the request. -/
  | fail (message : String)
  | edit (edit : StreamEdit)
  | write (data : Bytes)
  | writeEnd (data : Bytes)

structure Request where
  method : String
  path : String
  /-- Whether the connection is to be kept, if the request says. -/
  keepAlive : Option Bool
  /-- Runs just before the start frame. -/
  hook : List HookStep
  /-- The number of the line that the answer leaves on. -/
  line : Nat

/-- How far a stream has come. -/
inductive Phase where
  | notStarted
  | prepared (request : Request) (writer : Writer)
  | closed (length : Nat)

/-- A response whose body is produced while it is sent. -/
structure Stream where
  /-- Tells streams apart; no two share it. -/
  id : Nat
  status : StatusCode
  headers : Headers
  contentType : Option String
  contentLength : Option Nat
  /-- What was asked for before the start, and what was decided after it. -/
  keepAlive : Option Bool
  scratch : Scratch
  phase : Phase

namespace Stream

def build (id : Nat) (code : Nat) (headers : Headers) : Except ResponseError Stream :=
  match StatusCode.ofNat? code with
  | none => .error (.statusOutOfRange code)
  | some status =>
    .ok {
      id, status, headers
      contentType := none, contentLength := none, keepAlive := none
      scratch := ∅, phase := .notStarted }

/-- Streams of the given codes, numbered from `id` on. -/
def buildEach (id : Nat) : List Nat → Except ResponseError (List Stream)
  | [] => .ok []
  | code :: rest => do return (← build id code ∅) :: (← buildEach (id + 1) rest)

/-- Streams are the same when they carry the same number. -/
def same (a b : Stream) : Bool := a.id == b.id

/-- Makes a change that sends nothing. -/
def edit (stream : Stream) : StreamEdit → Except ResponseError Stream
  | .status code =>
    match StatusCode.ofNat? code with
    | some status => .ok { stream with status }
    | none => .error (.statusOutOfRange code)
  | .contentType value => .ok { stream with contentType := some value }
  | .contentLength value => .ok { stream with contentLength := some value }
  | .keepAlive value => .ok { stream with keepAlive := some value }
  | .headers edit => .ok { stream with headers := stream.headers.edit edit }
  | .scratch edit => .ok { stream with scratch := edit.apply stream.scratch }

def writer? (stream : Stream) : Option Writer :=
  match stream.phase with
  | .prepared _ writer => some writer
  | _ => none

/-- The bytes of the whole body, once the stream is closed. -/
def bodyLength? (stream : Stream) : Option Nat :=
  match stream.phase with
  | .closed length => some length
  | _ => none

def phaseName (stream : Stream) : String :=
  match stream.phase with
  | .notStarted => "NotStarted"
  | .prepared .. => "Prepared"
  | .closed _ => "Closed"

def display (stream : Stream) : String :=
  match stream.phase with
  | .notStarted => "<StreamingResponse not prepared>"
  | .prepared request _ => "<StreamingResponse " ++ request.method ++ " " ++ request.path ++ ">"
  | .closed _ => "<StreamingResponse eof>"

def headerDebugText (header : Header) : String :=
  "Header \x7b name: " ++ Text.quoted header.name ++ ", value: " ++ Text.quoted header.value ++
    " \x7d"

/-- How a stream is shown in full, under the given text for its number. -/
def debugText (id : String) (stream : Stream) : String :=
  let entries := ", ".intercalate (stream.headers.entries.map headerDebugText)
  s!"StreamingResponse \x7b id: {id}, status: {stream.status.val}, state: {stream.phaseName}, " ++
    s!"headers: HeaderMap \x7b entries: [{entries}] \x7d, .. \x7d"

end Stream

end DocumentServer
