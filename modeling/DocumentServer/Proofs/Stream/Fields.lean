import DocumentServer.Proofs.Stream.Recording

/-! Streams field by field. Here a stream has its state, its writer, its request and the length of
its body in fields of their own, which the type does not tie to each other, and each operation sets
the fields one after the other and tests no more of them than it has to. `call_ofStream` says that
every call on such a record does what it does on the stream whose phase the fields spell out, so
that combinations of fields that no phase stands for never arise. -/
namespace DocumentServer.Stream

/-- How far a stream has come. -/
inductive Standing where
  | notStarted
  | prepared
  | closed
  deriving DecidableEq, Repr

/-- The place of a state in the life of a stream. -/
def Standing.rank : Standing → Nat
  | notStarted => 0
  | prepared => 1
  | closed => 2

structure Fields where
  id : Nat
  status : Nat
  headers : Headers
  contentType : Option String
  contentLength : Option Nat
  keepAlive : Option Bool
  scratch : Scratch
  state : Standing
  /-- The writer with the number of the line that it sends on. -/
  writer : Option (Nat × Writer)
  request : Option Request
  bodyLength : Option Nat

namespace Fields

def build (id code : Nat) (headers : Headers) : Except ResponseError Fields :=
  if 100 ≤ code ∧ code ≤ 599 then
    .ok {
      id, headers, status := code
      contentType := none, contentLength := none, keepAlive := none, scratch := ∅
      state := .notStarted, writer := none, request := none, bodyLength := none }
  else .error (.statusOutOfRange code)

def edit (fields : Fields) : StreamEdit → Except ResponseError Fields
  | .status code =>
    if 100 ≤ code ∧ code ≤ 599 then .ok { fields with status := code }
    else .error (.statusOutOfRange code)
  | .contentType value => .ok { fields with contentType := some value }
  | .contentLength value => .ok { fields with contentLength := some value }
  | .keepAlive value => .ok { fields with keepAlive := some value }
  | .headers edit => .ok { fields with headers := fields.headers.edit edit }
  | .scratch edit => .ok { fields with scratch := edit.apply fields.scratch }

def prepared (fields : Fields) : Bool := fields.writer.isSome

def display (fields : Fields) : String :=
  match fields.state, fields.request with
  | .closed, _ => "<StreamingResponse eof>"
  | .prepared, some request =>
    "<StreamingResponse " ++ request.method ++ " " ++ request.path ++ ">"
  | _, _ => "<StreamingResponse not prepared>"

section Sending

variable (fields : Fields) (patience : Patience)

/-- The writer to use, or the fault of a closed stream or of one without a writer. -/
def activeWriter (late early : StateFault) : Except StateFault (Nat × Writer) :=
  match fields.state, fields.writer with
  | .closed, _ => .error late
  | _, some writer => .ok writer
  | _, none => .error early

def onWriter (writer : Nat × Writer) (call : Writer.Call) (lines : Lines) :
    Outcome Unit × Fields × Lines :=
  let (outcome, after, line) := writer.2.call patience (lines writer.1) call
  (outcome, { fields with writer := some (writer.1, after) }, lines.set writer.1 line)

def write (data : Bytes) (lines : Lines) : Outcome Unit × Fields × Lines :=
  match fields.activeWriter .writeAfterEnd .writeBeforeStart with
  | .error fault => (.failed (.state fault), fields, lines)
  | .ok writer => fields.onWriter patience writer (.write data) lines

def drain (lines : Lines) : Outcome Unit × Fields × Lines :=
  match fields.activeWriter .ended .notStarted with
  | .error fault => (.failed (.state fault), fields, lines)
  | .ok writer => fields.onWriter patience writer .drain lines

def close (length : Nat) : Fields :=
  { fields with bodyLength := some length, state := .closed, request := none, writer := none }

def writeEnd (data : Bytes) (lines : Lines) : Outcome Unit × Fields × Lines :=
  if fields.state = .closed then (.done (), fields, lines)
  else
    match fields.writer with
    | none => (.failed (.state .notStarted), fields, lines)
    | some (i, writer) =>
      match writer.writeEnd patience data (lines i) with
      | (.done _, writer, line) => (.done (), fields.close writer.sent, lines.set i line)
      | (outcome, writer, line) =>
        (outcome, { fields with writer := some (i, writer) }, lines.set i line)

end Sending

/-- Runs what is left of a hook. An attempt to write ends the hook if it does not succeed. -/
def runHook (patience : Patience) :
    List HookStep → Fields → Lines → Outcome Unit × Fields × Lines
  | [], fields, lines => (.done (), fields, lines)
  | .fail message :: _, fields, lines => (.failed (.invalidArgument message), fields, lines)
  | .write data :: rest, fields, lines =>
    match fields.write patience data lines with
    | (.done _, fields, lines) => runHook patience rest fields lines
    | ending => ending
  | .writeEnd data :: rest, fields, lines =>
    match fields.writeEnd patience data lines with
    | (.done _, fields, lines) => runHook patience rest fields lines
    | ending => ending
  | .edit edit :: rest, fields, lines =>
    match fields.edit edit with
    | .ok fields => runHook patience rest fields lines
    | .error error => (.failed error, fields, lines)

section Starting

variable (fields : Fields) (patience : Patience)

def startHeaders : Headers :=
  let headers :=
    fields.headers.setDefault "Content-Type" (fields.contentType.getD defaultContentType)
  match fields.contentLength with
  | some length => headers.setDefault "Content-Length" (toString length)
  | none => headers

def readied (request : Request) : Fields :=
  { fields with
    keepAlive := some ((fields.keepAlive <|> request.keepAlive).getD true)
    headers := fields.startHeaders }

def start (request : Request) (lines : Lines) : Outcome Unit × Fields × Lines :=
  let fields := fields.readied request
  match (lines request.line).send patience (.start fields.status fields.headers.wire) with
  | (.done _, line) =>
    (.done (),
      { fields with
        request := some request, state := .prepared, writer := some (request.line, .fresh) },
      lines.set request.line line)
  | (outcome, line) => (outcome, fields, lines.set request.line line)

/-- Starts the stream for a request, unless it has started. -/
def prepare (request : Request) (lines : Lines) : Outcome Unit × Fields × Lines :=
  match fields.state with
  | .closed => (.done (), fields, lines)
  | .prepared => (.done (), fields, lines)
  | .notStarted =>
    match runHook patience request.hook fields lines with
    | (.done _, fields, lines) => fields.start patience request lines
    | ending => ending

/-- Performs a call. Only a prepared stream hands out its writer. -/
def call (lines : Lines) : Call → Outcome Unit × Fields × Lines
  | .prepare request => fields.prepare patience request lines
  | .write data => fields.write patience data lines
  | .drain => fields.drain patience lines
  | .writeEnd data => fields.writeEnd patience data lines
  | .writer call =>
    match fields.state, fields.writer with
    | .prepared, some writer => fields.onWriter patience writer call lines
    | _, _ => (.done (), fields, lines)
  | .edit edit =>
    match fields.edit edit with
    | .ok fields => (.done (), fields, lines)
    | .error error => (.failed error, fields, lines)

end Starting

def run (fields : Fields) (lines : Lines) : List (Patience × Call) → Fields × Lines
  | [] => (fields, lines)
  | (patience, call) :: rest =>
    let (_, fields, lines) := fields.call patience lines call
    fields.run lines rest

/-- A stream without its phase, with the given fields in the place of it. -/
def spread (stream : Stream) (state : Standing) (writer : Option (Nat × Writer))
    (request : Option Request) (bodyLength : Option Nat) : Fields where
  id := stream.id
  status := stream.status.val
  headers := stream.headers
  contentType := stream.contentType
  contentLength := stream.contentLength
  keepAlive := stream.keepAlive
  scratch := stream.scratch
  state := state
  writer := writer
  request := request
  bodyLength := bodyLength

/-- The fields of a stream, with its phase spelled out. -/
def ofStream (stream : Stream) : Fields :=
  match stream.phase with
  | .notStarted => spread stream .notStarted none none none
  | .prepared request writer =>
    spread stream .prepared (some (request.line, writer)) (some request) none
  | .closed length => spread stream .closed none none (some length)

/-! ### The fields follow the phase -/

variable {stream : Stream} {lines : Lines} {request : Request} {writer : Writer} {length : Nat}

theorem ofStream_notStarted (h : stream.phase = .notStarted) :
    ofStream stream = spread stream .notStarted none none none := by
  simp only [ofStream, h]

theorem ofStream_prepared (h : stream.phase = .prepared request writer) :
    ofStream stream =
      spread stream .prepared (some (request.line, writer)) (some request) none := by
  simp only [ofStream, h]

theorem ofStream_closed (h : stream.phase = .closed length) :
    ofStream stream = spread stream .closed none none (some length) := by
  simp only [ofStream, h]

theorem build_ofStream (id code : Nat) (headers : Headers) :
    build id code headers = (Stream.build id code headers).map ofStream := by
  unfold build Stream.build StatusCode.ofNat?
  by_cases h : 100 ≤ code ∧ code ≤ 599
  · rw [if_pos h, dif_pos h]
    rfl
  · rw [if_neg h, dif_neg h]
    rfl

theorem edit_ofStream (stream : Stream) (edit : StreamEdit) :
    (ofStream stream).edit edit = (stream.edit edit).map ofStream := by
  cases edit with
  | status code =>
    simp only [Fields.edit, Stream.edit, StatusCode.ofNat?]
    by_cases h : 100 ≤ code ∧ code ≤ 599
    · rw [if_pos h, dif_pos h]
      cases hphase : stream.phase <;> simp [ofStream, hphase, spread, Except.map]
    · rw [if_neg h, dif_neg h]
      rfl
  | _ => cases hphase : stream.phase <;>
      simp [ofStream, hphase, spread, Except.map, Fields.edit, Stream.edit]

variable (patience : Patience)

/-- A call on the writer of a prepared stream. -/
theorem onWriter_ofStream (h : stream.phase = .prepared request writer) (call : Writer.Call)
    (lines : Lines) :
    (ofStream stream).onWriter patience (request.line, writer) call lines =
      let after := writer.call patience (lines request.line) call
      (after.1, ofStream (stream.withWriter request after.2.1),
        lines.set request.line after.2.2) := by
  rw [ofStream_prepared h]
  rfl

theorem write_ofStream (stream : Stream) (data : Bytes) (lines : Lines) :
    (ofStream stream).write patience data lines =
      let after := stream.write patience data lines
      (after.1, ofStream after.2.1, after.2.2) := by
  cases hphase : stream.phase with
  | notStarted =>
    simp [Fields.write, Stream.write, hphase, ofStream_notStarted hphase, spread, activeWriter]
  | closed =>
    simp [Fields.write, Stream.write, hphase, ofStream_closed hphase, spread, activeWriter]
  | prepared request writer =>
    have hactive : (ofStream stream).activeWriter .writeAfterEnd .writeBeforeStart =
        .ok (request.line, writer) := by
      rw [ofStream_prepared hphase]
      rfl
    simp only [Fields.write, hactive, onWriter_ofStream patience hphase, Stream.write, hphase]
    rfl

theorem drain_ofStream (stream : Stream) (lines : Lines) :
    (ofStream stream).drain patience lines =
      let after := stream.drain patience lines
      (after.1, ofStream after.2.1, after.2.2) := by
  cases hphase : stream.phase with
  | notStarted =>
    simp [Fields.drain, Stream.drain, hphase, ofStream_notStarted hphase, spread, activeWriter]
  | closed =>
    simp [Fields.drain, Stream.drain, hphase, ofStream_closed hphase, spread, activeWriter]
  | prepared request writer =>
    have hactive : (ofStream stream).activeWriter .ended .notStarted =
        .ok (request.line, writer) := by
      rw [ofStream_prepared hphase]
      rfl
    simp only [Fields.drain, hactive, onWriter_ofStream patience hphase, Stream.drain, hphase]
    rfl

theorem writeEnd_ofStream (stream : Stream) (data : Bytes) (lines : Lines) :
    (ofStream stream).writeEnd patience data lines =
      let after := stream.writeEnd patience data lines
      (after.1, ofStream after.2.1, after.2.2) := by
  cases hphase : stream.phase with
  | notStarted =>
    simp [Fields.writeEnd, Stream.writeEnd, hphase, ofStream_notStarted hphase, spread]
  | closed => simp [Fields.writeEnd, Stream.writeEnd, hphase, ofStream_closed hphase, spread]
  | prepared request writer =>
    rw [ofStream_prepared hphase]
    simp only [Fields.writeEnd, Stream.writeEnd, hphase, spread, reduceCtorEq, ↓reduceIte]
    rcases writer.writeEnd patience data (lines request.line) with ⟨outcome, after, line⟩
    cases outcome <;> rfl

def hookOutcome : Except ResponseError Unit → Outcome Unit
  | .ok _ => .done ()
  | .error error => .failed error

/-- A stream that has not started refuses what a hook writes to it. -/
theorem runHook_ofStream (hook : List HookStep) (h : stream.phase = .notStarted) (lines : Lines) :
    runHook patience hook (ofStream stream) lines =
      let after := Stream.runHook hook stream
      (hookOutcome after.1, ofStream after.2, lines) := by
  induction hook generalizing stream with
  | nil => rfl
  | cons step rest ih =>
    cases step with
    | fail => rfl
    | write data =>
      rw [runHook, write_ofStream]
      simp [Stream.write, h, Stream.runHook, hookOutcome]
    | writeEnd data =>
      rw [runHook, writeEnd_ofStream]
      simp [Stream.writeEnd, h, Stream.runHook, hookOutcome]
    | edit edit =>
      rw [runHook, edit_ofStream, Stream.runHook]
      cases hedit : stream.edit edit with
      | error => rfl
      | ok after => exact ih ((phase_edit hedit).trans h)

theorem start_ofStream (h : stream.phase = .notStarted) (request : Request) (lines : Lines) :
    (ofStream stream).start patience request lines =
      let after := stream.start patience request lines
      (after.1, ofStream after.2.1, after.2.2) := by
  have hready : (ofStream stream).readied request = ofStream (stream.readied request) := by
    rw [ofStream_notStarted h, ofStream_notStarted (show (stream.readied request).phase = _ from h)]
    rfl
  have hkept : ofStream (stream.readied request) =
      spread (stream.readied request) .notStarted none none none := ofStream_notStarted h
  simp only [Fields.start, Stream.start, hready, hkept, spread]
  rcases (lines request.line).send patience _ with ⟨outcome, line⟩
  cases outcome with
  | done => rfl
  | failed => simp [hkept, spread]
  | cancelled => simp [hkept, spread]

theorem prepare_ofStream (stream : Stream) (request : Request) (lines : Lines) :
    (ofStream stream).prepare patience request lines =
      let after := stream.prepare patience request lines
      (after.1, ofStream after.2.1, after.2.2) := by
  cases hphase : stream.phase with
  | closed => simp [Fields.prepare, Stream.prepare_eq, hphase, ofStream_closed hphase, spread]
  | prepared => simp [Fields.prepare, Stream.prepare_eq, hphase, ofStream_prepared hphase, spread]
  | notStarted =>
    have hstate : (ofStream stream).state = .notStarted := by rw [ofStream_notStarted hphase]; rfl
    have hkept := phase_runHook request.hook stream
    simp only [Fields.prepare, hstate, runHook_ofStream patience request.hook hphase lines,
      Stream.prepare_eq, hphase]
    rcases hhook : Stream.runHook request.hook stream with ⟨result, ready⟩
    rw [hhook, hphase] at hkept
    cases result with
    | error => rfl
    | ok => exact start_ofStream patience hkept request lines

/-- A call on the fields does what it does on the stream. -/
theorem call_ofStream (stream : Stream) (lines : Lines) (call : Call) :
    (ofStream stream).call patience lines call =
      let after := stream.call patience lines call
      (after.1, ofStream after.2.1, after.2.2) := by
  cases call with
  | prepare request => exact prepare_ofStream patience stream request lines
  | write data => exact write_ofStream patience stream data lines
  | drain => exact drain_ofStream patience stream lines
  | writeEnd data => exact writeEnd_ofStream patience stream data lines
  | writer call =>
    cases hphase : stream.phase with
    | notStarted =>
      simp [Fields.call, Stream.call, callWriter, hphase, ofStream_notStarted hphase, spread]
    | closed => simp [Fields.call, Stream.call, callWriter, hphase, ofStream_closed hphase, spread]
    | prepared request writer =>
      have hcall := onWriter_ofStream patience hphase call lines
      rw [ofStream_prepared hphase] at hcall ⊢
      simpa [Fields.call, Stream.call, callWriter, hphase, spread] using hcall
  | edit edit =>
    simp only [Fields.call, edit_ofStream, Stream.call]
    cases stream.edit edit <;> rfl

theorem run_ofStream (stream : Stream) (lines : Lines) (calls : List (Patience × Call)) :
    (ofStream stream).run lines calls =
      let after := stream.run lines calls
      (ofStream after.1, after.2) := by
  induction calls generalizing stream lines with
  | nil => rfl
  | cons entry rest ih =>
    obtain ⟨patience, call⟩ := entry
    rw [Fields.run, call_ofStream]
    exact ih _ _

end Fields

end DocumentServer.Stream
