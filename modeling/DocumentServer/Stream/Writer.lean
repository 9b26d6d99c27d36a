import DocumentServer.Transport.Line

/-! The writer of a body. Chunks queue up and leave as one frame each; the last frame ends the
writer. A chunk leaves the queue before its frame is offered, so the chunk of a refused or cancelled
call is not offered again. -/
namespace DocumentServer

/-- The state of a body that is being written. -/
structure Writer where
  /-- The chunks that wait, the next one first. -/
  queue : List Bytes
  /-- The bytes that wait. -/
  buffered : Nat
  /-- The bytes that the line accepted. -/
  sent : Nat
  /-- Whether the final frame was accepted. -/
  ended : Bool
  deriving DecidableEq, Repr

namespace Writer

def fresh : Writer := ⟨[], 0, 0, false⟩

/-- The writer once its first chunk is taken out of the queue, with `rest` behind it. -/
def taken (writer : Writer) (chunk : Bytes) (rest : List Bytes) : Writer :=
  { writer with queue := rest, buffered := writer.buffered - chunk.length }

/-- The writer once the line accepted some bytes. -/
def credited (writer : Writer) (count : Nat) : Writer :=
  { writer with sent := writer.sent + count }

def enqueued (writer : Writer) (chunk : Bytes) : Writer :=
  { writer with queue := writer.queue ++ [chunk], buffered := writer.buffered + chunk.length }

/-- Sends the given chunks, which are those of the queue, until one is not accepted. -/
def drainQueue (patience : Patience) :
    List Bytes → Writer → Line → Outcome Unit × Writer × Line
  | [], writer, line => (.done (), writer, line)
  | chunk :: rest, writer, line =>
    match line.send patience (.body chunk true) with
    | (.done _, line) =>
      drainQueue patience rest ((writer.taken chunk rest).credited chunk.length) line
    | (outcome, line) => (outcome, writer.taken chunk rest, line)

def drain (writer : Writer) (patience : Patience) (line : Line) :
    Outcome Unit × Writer × Line :=
  drainQueue patience writer.queue writer line

/-- Queues a chunk and sends the queue. -/
def write (writer : Writer) (patience : Patience) (chunk : Bytes) (line : Line) :
    Outcome Unit × Writer × Line :=
  if writer.ended then (.failed (.state .writerEnded), writer, line)
  else (writer.enqueued chunk).drain patience line

/-- Sends the queue and then the final frame, unless that was sent before. -/
def writeEnd (writer : Writer) (patience : Patience) (chunk : Bytes) (line : Line) :
    Outcome Unit × Writer × Line :=
  if writer.ended then (.done (), writer, line)
  else
    match writer.drain patience line with
    | (.done _, writer, line) =>
      match line.send patience (.body chunk false) with
      | (.done _, line) => (.done (), { writer.credited chunk.length with ended := true }, line)
      | (outcome, line) => (outcome, writer, line)
    | ending => ending

inductive Call where
  | write (data : Bytes)
  | drain
  | writeEnd (data : Bytes)
  | enableCompression (encoding : String)
  | enableChunking
  deriving DecidableEq, Repr

/-- Performs a call. Compression and chunking are not offered. -/
def call (writer : Writer) (patience : Patience) (line : Line) :
    Call → Outcome Unit × Writer × Line
  | .write data => writer.write patience data line
  | .drain => writer.drain patience line
  | .writeEnd data => writer.writeEnd patience data line
  | .enableCompression _ => (.failed (.unsupported .compression), writer, line)
  | .enableChunking => (.failed (.unsupported .chunking), writer, line)

def debugText (writer : Writer) : String :=
  s!"StreamWriter \x7b buffer_size: {writer.buffered}, output_size: {writer.sent}, " ++
    s!"eof: {writer.ended}, .. \x7d"

end Writer

end DocumentServer
