import DocumentServer.Stream.Basic

/-! What a stream sends. Preparing runs the request's hook and sends the start frame; writing passes
chunks to the writer of the prepared stream; ending it sends the final frame. Calls that come at the
wrong time leave everything as it is. -/
namespace DocumentServer.Stream

/-- The content type of streams that name none. -/
def defaultContentType : String := "application/octet-stream"

/-- Runs what is left of a hook. The stream has not started, so every attempt to write fails and
ends the hook. -/
def runHook : List HookStep → Stream → Except ResponseError Unit × Stream
  | [], stream => (.ok (), stream)
  | .fail message :: _, stream => (.error (.invalidArgument message), stream)
  | .write _ :: _, stream => (.error (.state .writeBeforeStart), stream)
  | .writeEnd _ :: _, stream => (.error (.state .notStarted), stream)
  | .edit edit :: rest, stream =>
    match stream.edit edit with
    | .ok stream => runHook rest stream
    | .error error => (.error error, stream)

/-- The headers with those that a start frame adds: the content type, and the content length if it
is known, unless they are there already. -/
def startHeaders (stream : Stream) : Headers :=
  let headers :=
    stream.headers.setDefault "Content-Type" (stream.contentType.getD defaultContentType)
  match stream.contentLength with
  | some length => headers.setDefault "Content-Length" (toString length)
  | none => headers

/-- The stream as it is when its start frame leaves: the policy on keeping the connection is decided
and the headers are complete. -/
def readied (stream : Stream) (request : Request) : Stream :=
  { stream with
    keepAlive := some ((stream.keepAlive <|> request.keepAlive).getD true)
    headers := stream.startHeaders }

def start (stream : Stream) (patience : Patience) (request : Request) (lines : Lines) :
    Outcome Unit × Stream × Lines :=
  let stream := stream.readied request
  match (lines request.line).send patience (.start stream.status.val stream.headers.wire) with
  | (.done _, line) =>
    (.done (), { stream with phase := .prepared request .fresh }, lines.set request.line line)
  | (outcome, line) => (outcome, stream, lines.set request.line line)

/-- What runs just before a start frame: it may do anything to the stream and the lines, and may
keep the stream from starting. -/
abbrev Hook := Stream → Lines → Outcome Unit × Stream × Lines

/-- The hook that takes the steps a request asks for. -/
def Hook.own (request : Request) : Hook := fun stream lines =>
  match runHook request.hook stream with
  | (.ok _, stream) => (.done (), stream, lines)
  | (.error error, stream) => (.failed error, stream, lines)

/-- Starts the stream for a request, unless it has started, once a hook has run. -/
def prepareWith (hook : Hook) (stream : Stream) (patience : Patience) (request : Request)
    (lines : Lines) : Outcome Unit × Stream × Lines :=
  match stream.phase with
  | .closed _ => (.done (), stream, lines)
  | .prepared .. => (.done (), stream, lines)
  | .notStarted =>
    match hook stream lines with
    | (.done _, stream, lines) => stream.start patience request lines
    | ending => ending

/-- Starts the stream for a request, unless it has started, once the request's own hook has run. -/
def prepare (stream : Stream) (patience : Patience) (request : Request) (lines : Lines) :
    Outcome Unit × Stream × Lines :=
  stream.prepareWith (.own request) patience request lines

/-- The stream with what became of its writer. -/
def withWriter (stream : Stream) (request : Request) (writer : Writer) : Stream :=
  { stream with phase := .prepared request writer }

def write (stream : Stream) (patience : Patience) (data : Bytes) (lines : Lines) :
    Outcome Unit × Stream × Lines :=
  match stream.phase with
  | .notStarted => (.failed (.state .writeBeforeStart), stream, lines)
  | .closed _ => (.failed (.state .writeAfterEnd), stream, lines)
  | .prepared request writer =>
    let (outcome, writer, line) := writer.write patience data (lines request.line)
    (outcome, stream.withWriter request writer, lines.set request.line line)

def drain (stream : Stream) (patience : Patience) (lines : Lines) :
    Outcome Unit × Stream × Lines :=
  match stream.phase with
  | .notStarted => (.failed (.state .notStarted), stream, lines)
  | .closed _ => (.failed (.state .ended), stream, lines)
  | .prepared request writer =>
    let (outcome, writer, line) := writer.drain patience (lines request.line)
    (outcome, stream.withWriter request writer, lines.set request.line line)

/-- Ends the body with a last chunk and closes the stream, unless it is closed. -/
def writeEnd (stream : Stream) (patience : Patience) (data : Bytes) (lines : Lines) :
    Outcome Unit × Stream × Lines :=
  match stream.phase with
  | .notStarted => (.failed (.state .notStarted), stream, lines)
  | .closed _ => (.done (), stream, lines)
  | .prepared request writer =>
    match writer.writeEnd patience data (lines request.line) with
    | (.done _, writer, line) =>
      (.done (), { stream with phase := .closed writer.sent }, lines.set request.line line)
    | (outcome, writer, line) =>
      (outcome, stream.withWriter request writer, lines.set request.line line)

/-- A call on the writer of a prepared stream, past the stream. A stream without a writer gives
nothing. -/
def callWriter (stream : Stream) (patience : Patience) (call : Writer.Call) (lines : Lines) :
    Option (Outcome Unit) × Stream × Lines :=
  match stream.phase with
  | .prepared request writer =>
    let (outcome, writer, line) := writer.call patience (lines request.line) call
    (some outcome, stream.withWriter request writer, lines.set request.line line)
  | _ => (none, stream, lines)

inductive Call where
  | prepare (request : Request)
  | write (data : Bytes)
  | drain
  | writeEnd (data : Bytes)
  | writer (call : Writer.Call)
  | edit (edit : StreamEdit)

/-- Performs a call. A call on the writer of a stream that has none does nothing. -/
def call (stream : Stream) (patience : Patience) (lines : Lines) :
    Call → Outcome Unit × Stream × Lines
  | .prepare request => stream.prepare patience request lines
  | .write data => stream.write patience data lines
  | .drain => stream.drain patience lines
  | .writeEnd data => stream.writeEnd patience data lines
  | .writer call =>
    let (outcome, stream, lines) := stream.callWriter patience call lines
    (outcome.getD (.done ()), stream, lines)
  | .edit edit =>
    match stream.edit edit with
    | .ok stream => (.done (), stream, lines)
    | .error error => (.failed error, stream, lines)

/-- Performs calls one after the other, each with its own patience, whatever becomes of them. -/
def run (stream : Stream) (lines : Lines) : List (Patience × Call) → Stream × Lines
  | [] => (stream, lines)
  | (patience, call) :: rest =>
    let (_, stream, lines) := stream.call patience lines call
    stream.run lines rest

end DocumentServer.Stream
