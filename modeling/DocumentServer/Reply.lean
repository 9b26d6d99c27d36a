import DocumentServer.Response.Send
import DocumentServer.Stream.Sending

/-! What a handler gives back, and how it is sent. A stream that the handler left open is ended, so
that an answer ends with one final frame. -/
namespace DocumentServer

inductive Reply where
  | full (response : Response)
  | stream (stream : Stream)

/-- The answer of a handler, or the response that took its place. -/
abbrev HandlerResult := Except Response Reply

namespace HandlerResult

def sendFull (response : Response) (patience : Patience) (request : Request) (lines : Lines) :
    Outcome Unit × Lines :=
  let (outcome, line) := response.send patience (lines request.line)
  (outcome, lines.set request.line line)

/-- Ends a stream, starting it first if that was not done. -/
def finish (stream : Stream) (patience : Patience) (request : Request) (lines : Lines) :
    Outcome Unit × Stream × Lines :=
  match stream.phase with
  | .closed _ => (.done (), stream, lines)
  | .prepared .. => stream.writeEnd patience [] lines
  | .notStarted =>
    match stream.prepare patience request lines with
    | (.done _, stream, lines) => stream.writeEnd patience [] lines
    | ending => ending

/-- Sends what a handler gave back as the answer to a request. -/
def emit (result : HandlerResult) (patience : Patience) (request : Request) (lines : Lines) :
    Outcome Unit × Lines :=
  match result with
  | .ok (.full response) => sendFull response patience request lines
  | .error response => sendFull response patience request lines
  | .ok (.stream stream) =>
    let (outcome, _, lines) := finish stream patience request lines
    (outcome, lines)

end HandlerResult

end DocumentServer
