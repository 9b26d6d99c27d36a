import DocumentServer.Response.Basic
import DocumentServer.Transport.Line

/-! Sending a complete response: a start frame and one final body frame. A response with a payload
gets a content type and a content length unless it has them. -/
namespace DocumentServer.Response

/-- The content type that a payload gets by default. -/
def defaultContentType? (response : Response) : Option String :=
  match response.payload with
  | .document _ => some "application/json"
  | .raw _ => some "application/octet-stream"
  | .empty => none

def sentHeaders (response : Response) : Headers :=
  match response.defaultContentType? with
  | none => response.headers
  | some contentType =>
    (response.headers.setDefault "Content-Type" contentType).setDefault "Content-Length"
      (toString response.body.length)

def startFrame (response : Response) : Frame :=
  .start response.status.val response.sentHeaders.wire

/-- Sends the frames of a response; the body is not attempted when the start is refused. -/
def send (patience : Patience) (response : Response) (line : Line) : Outcome Unit × Line :=
  match line.send patience response.startFrame with
  | (.done _, line) => line.send patience (.body response.body false)
  | (outcome, line) => (outcome, line)

end DocumentServer.Response
