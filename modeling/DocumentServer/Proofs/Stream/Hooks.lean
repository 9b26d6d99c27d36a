import DocumentServer.Reply

/-! Hooks of any kind. Calls and replies may run any hooks in place of those that the requests ask
for. A hook is `Quiet` if it neither prepares the stream nor touches the lines, and the hooks that
requests ask for are. -/
namespace DocumentServer

namespace Stream

namespace Call

/-- The request that a call prepares the stream for. -/
def request? : Call → Option Request
  | prepare request => some request
  | _ => none

end Call

/-! ### The hooks of requests -/

theorem prepare_eq (stream : Stream) (patience : Patience) (request : Request) (lines : Lines) :
    stream.prepare patience request lines =
      match stream.phase with
      | .closed _ => (.done (), stream, lines)
      | .prepared .. => (.done (), stream, lines)
      | .notStarted =>
        match runHook request.hook stream with
        | (.ok _, stream) => stream.start patience request lines
        | (.error error, stream) => (.failed error, stream, lines) := by
  unfold prepare prepareWith Hook.own
  cases stream.phase with
  | closed => rfl
  | prepared => rfl
  | notStarted =>
    rcases runHook request.hook stream with ⟨result, hooked⟩
    cases result <;> rfl

/-- Changes that send nothing leave the phase alone. -/
theorem phase_edit {stream : Stream} {edit : StreamEdit} {after : Stream}
    (h : stream.edit edit = .ok after) : after.phase = stream.phase := by
  cases edit with
  | status code =>
    simp only [Stream.edit] at h
    split at h
    · cases h; rfl
    · cases h
  | _ => cases h; rfl

theorem phase_runHook (hook : List HookStep) (stream : Stream) :
    (runHook hook stream).2.phase = stream.phase := by
  induction hook generalizing stream with
  | nil => rfl
  | cons step rest ih =>
    cases step with
    | fail => rfl
    | write => rfl
    | writeEnd => rfl
    | edit edit =>
      simp only [runHook]
      split
      next after h => rw [ih, phase_edit h]
      next => rfl

/-- A hook does not prepare the stream, and leaves the lines alone. -/
structure Hook.Quiet (hook : Hook) : Prop where
  phase : ∀ stream lines, stream.phase = .notStarted →
    (hook stream lines).2.1.phase = .notStarted
  lines : ∀ stream lines, (hook stream lines).2.2 = lines

theorem Hook.quiet_own (request : Request) : (Hook.own request).Quiet where
  phase stream lines h := by
    have hkept := phase_runHook request.hook stream
    unfold own
    rcases hran : runHook request.hook stream with ⟨result, hooked⟩
    rw [hran, h] at hkept
    cases result <;> exact hkept
  lines stream lines := by
    unfold own
    rcases runHook request.hook stream with ⟨result, hooked⟩
    cases result <;> rfl

/-! ### Calls and runs -/

/-- Performs a call, with any hooks for the requests. -/
def callWith (hooks : Request → Hook) (stream : Stream) (patience : Patience) (lines : Lines) :
    Call → Outcome Unit × Stream × Lines
  | .prepare request => stream.prepareWith (hooks request) patience request lines
  | call => stream.call patience lines call

/-- Performs calls one after the other, with any hooks for the requests. -/
def runWith (hooks : Request → Hook) (stream : Stream) (lines : Lines) :
    List (Patience × Call) → Stream × Lines
  | [] => (stream, lines)
  | (patience, call) :: rest =>
    let (_, stream, lines) := stream.callWith hooks patience lines call
    stream.runWith hooks lines rest

variable (stream : Stream) (patience : Patience) (lines : Lines)

theorem callWith_own (call : Call) :
    stream.callWith .own patience lines call = stream.call patience lines call := by
  cases call <;> rfl

theorem callWith_of_request? {call : Call} (h : call.request? = none) (hooks : Request → Hook) :
    stream.callWith hooks patience lines call = stream.call patience lines call := by
  cases call with
  | prepare => cases h
  | _ => rfl

theorem runWith_own (calls : List (Patience × Call)) :
    stream.runWith .own lines calls = stream.run lines calls := by
  induction calls generalizing stream lines with
  | nil => rfl
  | cons entry rest ih =>
    obtain ⟨patience, call⟩ := entry
    rw [runWith, run, callWith_own]
    exact ih ..

end Stream

/-! ### Replies -/

namespace HandlerResult

/-- Ends a stream, starting it first if that was not done, with any hook. -/
def finishWith (hook : Stream.Hook) (stream : Stream) (patience : Patience) (request : Request)
    (lines : Lines) : Outcome Unit × Stream × Lines :=
  match stream.phase with
  | .notStarted =>
    match stream.prepareWith hook patience request lines with
    | (.done _, stream, lines) => stream.writeEnd patience [] lines
    | ending => ending
  | _ => finish stream patience request lines

/-- Sends what a handler gave back, with any hook. -/
def emitWith (hook : Stream.Hook) (result : HandlerResult) (patience : Patience) (request : Request)
    (lines : Lines) : Outcome Unit × Lines :=
  match result with
  | .ok (.stream stream) =>
    let (outcome, _, lines) := finishWith hook stream patience request lines
    (outcome, lines)
  | result => result.emit patience request lines

variable (patience : Patience) (request : Request) (lines : Lines)

theorem finishWith_own (stream : Stream) :
    finishWith (.own request) stream patience request lines =
      finish stream patience request lines := by
  unfold finishWith finish
  cases stream.phase <;> rfl

theorem emitWith_own (result : HandlerResult) :
    result.emitWith (.own request) patience request lines = result.emit patience request lines := by
  unfold emitWith
  split
  next stream => rw [finishWith_own]; rfl
  next => rfl

end HandlerResult

end DocumentServer
