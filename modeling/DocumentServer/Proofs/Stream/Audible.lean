import DocumentServer.Proofs.Stream.Session

/-! What of a stream can be heard on its lines. Scratch values are never read, and once the start
frame has left nothing is but the writer. Streams that agree on the rest are `Alike`, and every call
keeps them so. A run is therefore alike to the run of its audible calls, which are without the
changes that cannot show, and sessions with the same audible calls send the same frames and get the
same answers. -/
namespace DocumentServer

namespace HookStep

/-- The change that a step makes to scratch values. -/
def scratch? : HookStep → Option ScratchEdit
  | .edit (.scratch change) => some change
  | _ => none

/-- Whether a hook goes on after the step. -/
def passes : HookStep → Bool
  | .edit (.status code) => (StatusCode.ofNat? code).isSome
  | .edit _ => true
  | _ => false

end HookStep

namespace Request

/-- The request without what its hook does to scratch values. -/
def audible (request : Request) : Request :=
  { request with hook := request.hook.filter (·.scratch?.isNone) }

/-- What the hook does to scratch values before it ends. -/
def scratchEdits (request : Request) : List ScratchEdit :=
  (request.hook.takeWhile (·.passes)).filterMap (·.scratch?)

end Request

namespace Stream

namespace Call

/-- The change that a call makes, if it is one that sends nothing. -/
def edit? : Call → Option StreamEdit
  | .edit change => some change
  | _ => none

/-- The call without what a hook does to scratch values. -/
def audible : Call → Call
  | prepare request => prepare request.audible
  | call => call

end Call

/-- Whether a change can show in what the stream sends. -/
def hears (stream : Stream) : StreamEdit → Bool
  | .scratch _ => false
  | _ => stream.phase matches .notStarted

/-- The calls of a run without the changes that cannot show. -/
def audibleCalls (stream : Stream) (lines : Lines) :
    List (Patience × Call) → List (Patience × Call)
  | [] => []
  | (patience, call) :: rest =>
    let (_, after, lines') := stream.call patience lines call
    if call.edit?.all stream.hears then
      (patience, call.audible) :: after.audibleCalls lines' rest
    else after.audibleCalls lines' rest

/-- What the calls of a run give back that are not changes: how they end, and the writer that there
is then. -/
def answers (stream : Stream) (lines : Lines) :
    List (Patience × Call) → List (Outcome Unit × Option Writer)
  | [] => []
  | (patience, call) :: rest =>
    let (outcome, after, lines') := stream.call patience lines call
    if call.edit?.isNone then (outcome, after.writer?) :: after.answers lines' rest
    else after.answers lines' rest

/-- What a call does to scratch values: what it says itself, or what the hook of a start does. -/
def scratchEdits (stream : Stream) : Call → List ScratchEdit
  | .prepare request =>
    match stream.phase with
    | .notStarted => request.scratchEdits
    | _ => []
  | .edit (.scratch change) => [change]
  | _ => []

end Stream

/-- The session without the changes that cannot show. -/
def Session.audible (session : Session) (stream : Stream) (lines : Lines) : Session where
  calls := stream.audibleCalls lines session.calls
  closing := session.closing.map fun (patience, request) => (patience, request.audible)

namespace Stream

def withScratch (stream : Stream) (scratch : Scratch) : Stream := { stream with scratch }

/-- Streams that agree on all that is still to be read: everything but scratch values before the
start, the writer and its line from then on. -/
inductive Alike : Stream → Stream → Prop
  | notStarted {stream : Stream} (scratch : Scratch) : stream.phase = .notStarted →
      Alike stream (stream.withScratch scratch)
  | prepared {stream other : Stream} {request request' : Request} {writer : Writer} :
      stream.phase = .prepared request writer → other.phase = .prepared request' writer →
      request'.line = request.line → Alike stream other
  | closed {stream other : Stream} {length : Nat} :
      stream.phase = .closed length → other.phase = .closed length → Alike stream other

/-- Endings of a call that are the same up to streams that are alike. -/
def EndAlike (ending other : Outcome Unit × Stream × Lines) : Prop :=
  ending.1 = other.1 ∧ Alike ending.2.1 other.2.1 ∧ ending.2.2 = other.2.2

variable {stream other : Stream} {request : Request} {writer : Writer} {length : Nat}

theorem Alike.refl (stream : Stream) : Alike stream stream := by
  cases h : stream.phase with
  | notStarted => exact .notStarted stream.scratch h
  | prepared request writer => exact .prepared h h rfl
  | closed length => exact .closed h h

theorem Alike.writer? (h : Alike stream other) : stream.writer? = other.writer? := by
  cases h with
  | notStarted => rfl
  | prepared h h' => simp only [Stream.writer?, h, h']
  | closed h h' => simp only [Stream.writer?, h, h']

/-! ### Changes -/

/-- A change that cannot show makes no difference, whether it succeeds or not. -/
theorem Alike.edit_unheard (h : Alike stream other) {edit : StreamEdit} {after : Stream}
    (hedit : stream.edit edit = .ok after) (hunheard : stream.hears edit = false) :
    Alike after other := by
  have hphase := phase_edit hedit
  cases h with
  | notStarted scratch hfresh =>
    cases edit with
    | scratch edit =>
      cases hedit
      exact @Alike.notStarted { stream with scratch := edit.apply stream.scratch } scratch hfresh
    | _ => simp [hears, hfresh] at hunheard
  | prepared h h' hline => exact .prepared (hphase.trans h) h' hline
  | closed h h' => exact .closed (hphase.trans h) h'

/-- Other changes do not touch scratch values. -/
theorem edit_withScratch {edit : StreamEdit} (hedit : (HookStep.edit edit).scratch? = none)
    (stream : Stream) (scratch : Scratch) :
    (stream.withScratch scratch).edit edit = (stream.edit edit).map (·.withScratch scratch) := by
  cases edit with
  | scratch => cases hedit
  | status code =>
    simp only [Stream.edit]
    cases StatusCode.ofNat? code <;> rfl
  | _ => rfl

/-! ### Hooks -/

/-- What a hook does to scratch values neither ends it nor shows. -/
theorem runHook_withScratch (hook : List HookStep) (stream : Stream) (scratch : Scratch) :
    runHook (hook.filter (·.scratch?.isNone)) (stream.withScratch scratch) =
      let after := runHook hook stream
      (after.1, after.2.withScratch scratch) := by
  induction hook generalizing stream with
  | nil => rfl
  | cons step rest ih =>
    cases step with
    | fail => rfl
    | write => rfl
    | writeEnd => rfl
    | edit edit =>
      rw [runHook, List.filter_cons]
      cases hscratch : (HookStep.edit edit).scratch? with
      | none =>
        simp only [Option.isNone_none, ↓reduceIte, runHook, edit_withScratch hscratch]
        cases stream.edit edit with
        | ok after => exact ih after
        | error => rfl
      | some change =>
        cases edit with
        | scratch edit => exact ih (stream.withScratch (edit.apply stream.scratch))
        | _ => cases hscratch

/-! ### Calls -/

section Call

variable (patience : Patience) (lines : Lines)

theorem readied_withScratch (stream : Stream) (request : Request) (scratch : Scratch) :
    (stream.withScratch scratch).readied request.audible =
      (stream.readied request).withScratch scratch := rfl

theorem start_withScratch (hfresh : stream.phase = .notStarted) (request : Request)
    (scratch : Scratch) :
    EndAlike (stream.start patience request lines)
      ((stream.withScratch scratch).start patience request.audible lines) := by
  simp only [start_eq, readied_withScratch]
  refine ⟨rfl, ?_, rfl⟩
  show Alike (ite _ _ _) (ite (((lines request.line).send patience
    (.start (stream.readied request).status.val (stream.readied request).headers.wire)).1 = _) _ _)
  split_ifs
  · exact .prepared rfl rfl rfl
  · exact .notStarted scratch hfresh

theorem Alike.prepare (h : Alike stream other) (request : Request) :
    EndAlike (stream.prepare patience request lines)
      (other.prepare patience request.audible lines) := by
  have hkeep := h
  rw [Stream.prepare_eq, Stream.prepare_eq]
  cases h with
  | notStarted scratch hfresh =>
    have hhook : runHook request.audible.hook (stream.withScratch scratch) = _ :=
      runHook_withScratch request.hook stream scratch
    have hkept := phase_runHook request.hook stream
    rcases hran : runHook request.hook stream with ⟨result, ready⟩
    rw [hran] at hhook hkept
    simp only [show (stream.withScratch scratch).phase = .notStarted from hfresh, hfresh, hhook]
    cases result with
    | ok => exact start_withScratch patience lines (hkept.trans hfresh) request scratch
    | error => exact ⟨rfl, .notStarted scratch (hkept.trans hfresh), rfl⟩
  | prepared h h' =>
    simp only [h, h']
    exact ⟨rfl, hkeep, rfl⟩
  | closed h h' =>
    simp only [h, h']
    exact ⟨rfl, hkeep, rfl⟩

theorem Alike.writeEnd (h : Alike stream other) (data : Bytes) :
    EndAlike (stream.writeEnd patience data lines) (other.writeEnd patience data lines) := by
  have hkeep := h
  unfold Stream.writeEnd
  cases h with
  | notStarted scratch hfresh =>
    simp only [show (stream.withScratch scratch).phase = .notStarted from hfresh, hfresh]
    exact ⟨rfl, hkeep, rfl⟩
  | prepared h h' hline =>
    simp only [h, h', hline]
    split
    · exact ⟨rfl, .closed rfl rfl, rfl⟩
    · exact ⟨rfl, .prepared rfl rfl hline, rfl⟩
  | closed h h' =>
    simp only [h, h']
    exact ⟨rfl, hkeep, rfl⟩

/-- A change that can show is made before the start, and not to scratch values. -/
theorem hears_iff (edit : StreamEdit) :
    stream.hears edit = true ↔
      stream.phase = .notStarted ∧ (HookStep.edit edit).scratch? = none := by
  cases hphase : stream.phase <;> cases edit <;> simp [hears, hphase, HookStep.scratch?]

/-- A call that can show ends the same on streams that are alike, and keeps them so. -/
theorem Alike.call (h : Alike stream other) {call : Call}
    (hheard : call.edit?.all stream.hears = true) :
    EndAlike (stream.call patience lines call) (other.call patience lines call.audible) := by
  cases call with
  | prepare request => exact h.prepare patience lines request
  | writeEnd data => exact h.writeEnd patience lines data
  | edit edit =>
    obtain ⟨hfresh, hscratch⟩ := (hears_iff edit).1 hheard
    cases h with
    | notStarted scratch _ =>
      simp only [Stream.call, Call.audible, edit_withScratch hscratch]
      cases hedit : stream.edit edit with
      | ok after => exact ⟨rfl, .notStarted scratch ((phase_edit hedit).trans hfresh), rfl⟩
      | error => exact ⟨rfl, .notStarted scratch hfresh, rfl⟩
    | prepared h => cases h.symm.trans hfresh
    | closed h => cases h.symm.trans hfresh
  -- What is written or drained reaches the writer, or fails by the phase.
  | _ =>
    have hkeep := h
    simp only [Call.audible, Stream.call, Stream.write, Stream.drain, Stream.callWriter]
    cases h with
    | notStarted scratch hfresh =>
      simp only [show (stream.withScratch scratch).phase = .notStarted from hfresh, hfresh]
      exact ⟨rfl, hkeep, rfl⟩
    | prepared h h' hline =>
      simp only [h, h', hline]
      exact ⟨rfl, .prepared rfl rfl hline, rfl⟩
    | closed h h' =>
      simp only [h, h']
      exact ⟨rfl, hkeep, rfl⟩

/-- Only changes cannot show, and they leave the lines and what is alike as they are. -/
theorem Alike.call_unheard (h : Alike stream other) {call : Call}
    (hunheard : ¬ call.edit?.all stream.hears = true) :
    call.edit?.isNone = false ∧ (stream.call patience lines call).2.2 = lines ∧
      Alike (stream.call patience lines call).2.1 other := by
  cases call with
  | edit edit =>
    simp only [Stream.call]
    split
    next after hedit =>
      exact ⟨rfl, rfl, h.edit_unheard hedit (Bool.eq_false_iff.2 hunheard)⟩
    next => exact ⟨rfl, rfl, h⟩
  | _ => exact absurd rfl hunheard

theorem Alike.finish (h : Alike stream other) (request : Request) :
    EndAlike (HandlerResult.finish stream patience request lines)
      (HandlerResult.finish other patience request.audible lines) := by
  unfold HandlerResult.finish
  have hkeep := h
  cases h with
  | notStarted scratch hfresh =>
    obtain ⟨houtcome, halike, hlines⟩ := hkeep.prepare patience lines request
    simp only [show (stream.withScratch scratch).phase = .notStarted from hfresh, hfresh]
    rcases hfirst : stream.prepare patience request lines with ⟨outcome, after, lines'⟩
    rcases hsecond : (stream.withScratch scratch).prepare patience request.audible lines with
      ⟨outcome', after', lines''⟩
    rw [hfirst, hsecond] at houtcome halike hlines
    cases houtcome
    cases hlines
    cases outcome with
    | done => exact halike.writeEnd patience lines' []
    | _ => exact ⟨rfl, halike, rfl⟩
  | prepared h h' hline =>
    simp only [h, h']
    exact hkeep.writeEnd patience lines []
  | closed h h' =>
    simp only [h, h']
    exact ⟨rfl, hkeep, rfl⟩

end Call

/-! ### Runs -/

/-- A run is alike to the run of its audible calls, which get the same answers. -/
theorem Alike.run (h : Alike stream other) (lines : Lines) (calls : List (Patience × Call)) :
    let heard := stream.audibleCalls lines calls
    Alike (stream.run lines calls).1 (other.run lines heard).1 ∧
      (stream.run lines calls).2 = (other.run lines heard).2 ∧
      stream.answers lines calls = other.answers lines heard := by
  induction calls generalizing stream other lines with
  | nil => exact ⟨h, rfl, rfl⟩
  | cons entry rest ih =>
    obtain ⟨patience, call⟩ := entry
    simp only [audibleCalls, Stream.run, answers]
    by_cases hheard : call.edit?.all stream.hears = true
    · obtain ⟨houtcome, halike, hlines⟩ := h.call patience lines hheard
      obtain ⟨hrun, hsent, hanswers⟩ := ih halike (stream.call patience lines call).2.2
      have hkind : call.audible.edit? = call.edit? := by cases call <;> rfl
      simp only [hheard, ↓reduceIte, Stream.run, answers, hkind, ← houtcome, ← hlines,
        ← halike.writer?, ← hanswers]
      exact ⟨hrun, hsent, trivial⟩
    · obtain ⟨hedit, hlines, halike⟩ := h.call_unheard patience lines hheard
      have hrest := ih halike lines
      simpa only [hheard, hedit, hlines, Bool.false_eq_true, ↓reduceIte] using hrest

/-! ### Scratch values -/

/-- A hook goes on after the changes that are possible. -/
theorem passes_edit (stream : Stream) (edit : StreamEdit) :
    (HookStep.edit edit).passes = (stream.edit edit).isOk := by
  cases edit with
  | status code =>
    simp only [HookStep.passes, Stream.edit]
    cases StatusCode.ofNat? code <;> rfl
  | _ => rfl

theorem scratch_edit {edit : StreamEdit} {after : Stream} (h : stream.edit edit = .ok after) :
    after.scratch =
      (HookStep.edit edit).scratch?.toList.foldl ScratchEdit.apply stream.scratch := by
  cases edit with
  | status code =>
    simp only [Stream.edit] at h
    split at h
    · cases h; rfl
    · cases h
  | _ => cases h; rfl

theorem scratch_runHook (hook : List HookStep) (stream : Stream) :
    (runHook hook stream).2.scratch =
      ((hook.takeWhile (·.passes)).filterMap (·.scratch?)).foldl ScratchEdit.apply
        stream.scratch := by
  induction hook generalizing stream with
  | nil => rfl
  | cons step rest ih =>
    cases step with
    | fail => rfl
    | write => rfl
    | writeEnd => rfl
    | edit edit =>
      have hpasses := passes_edit stream edit
      rw [runHook, List.takeWhile_cons, hpasses]
      cases hedit : stream.edit edit with
      | ok after =>
        simp only [Except.isOk, Except.toBool, ↓reduceIte]
        rw [ih after, scratch_edit hedit]
        cases hscratch : (HookStep.edit edit).scratch? <;> simp [hscratch]
      | error => rfl

section Scratch

variable (stream : Stream) (patience : Patience) (lines : Lines)

theorem scratch_start (request : Request) :
    (stream.start patience request lines).2.1.scratch = stream.scratch := by
  rw [start_eq]
  dsimp only
  split_ifs <;> rfl

theorem scratch_prepare (request : Request) :
    (stream.prepare patience request lines).2.1.scratch =
      (stream.scratchEdits (.prepare request)).foldl ScratchEdit.apply stream.scratch := by
  rw [prepare_eq]
  unfold scratchEdits
  cases stream.phase with
  | notStarted =>
    have hhook := scratch_runHook request.hook stream
    dsimp only
    rcases hran : runHook request.hook stream with ⟨result, ready⟩
    rw [hran] at hhook
    cases result with
    | ok => exact (scratch_start ready patience lines request).trans hhook
    | error => exact hhook
  | prepared => rfl
  | closed => rfl

theorem scratch_writeEnd (data : Bytes) :
    (stream.writeEnd patience data lines).2.1.scratch = stream.scratch := by
  unfold writeEnd
  split
  · rfl
  · rfl
  · split <;> rfl

theorem scratch_call (call : Call) :
    (stream.call patience lines call).2.1.scratch =
      (stream.scratchEdits call).foldl ScratchEdit.apply stream.scratch := by
  cases call with
  | prepare request => exact stream.scratch_prepare patience lines request
  | writeEnd data => exact stream.scratch_writeEnd patience lines data
  | edit edit =>
    have hlisted : stream.scratchEdits (.edit edit) = (HookStep.edit edit).scratch?.toList := by
      cases edit <;> rfl
    rw [hlisted, Stream.call]
    split
    next after hedit => exact scratch_edit hedit
    next error hedit =>
      cases edit with
      | status => rfl
      | _ => cases hedit
  | _ =>
    simp only [Stream.call, Stream.write, Stream.drain, Stream.callWriter]
    cases stream.phase <;> rfl

theorem scratch_finish (request : Request) :
    (HandlerResult.finish stream patience request lines).2.1.scratch =
      (stream.scratchEdits (.prepare request)).foldl ScratchEdit.apply stream.scratch := by
  have hprepare := stream.scratch_prepare patience lines request
  unfold HandlerResult.finish
  split
  next hphase => simp [scratchEdits, hphase]
  next hphase => simp [scratchEdits, hphase, scratch_writeEnd]
  next =>
    rcases hprep : stream.prepare patience request lines with ⟨outcome, after, lines'⟩
    rw [hprep] at hprepare
    cases outcome with
    | done => exact (after.scratch_writeEnd patience lines' []).trans hprepare
    | failed => exact hprepare
    | cancelled => exact hprepare

end Scratch

end Stream

namespace Session

variable {stream : Stream} {lines : Lines}

/-- A session ends as its audible part does. -/
theorem closed_audible (session : Session) (stream : Stream) (lines : Lines) :
    session.closed stream lines = (session.audible stream lines).closed stream lines := by
  obtain ⟨halike, hsent, -⟩ := (Stream.Alike.refl stream).run lines session.calls
  simp only [closed_eq, audible, Option.map_map]
  congr 1
  funext closing
  obtain ⟨patience, request⟩ := closing
  obtain ⟨houtcome, -, hlines⟩ :=
    halike.finish patience (stream.run lines session.calls).2 request
  simp only [HandlerResult.emit, Function.comp, ← hsent, houtcome, hlines]

theorem answers_audible (session : Session) (stream : Stream) (lines : Lines) :
    stream.answers lines session.calls =
      stream.answers lines (session.audible stream lines).calls :=
  ((Stream.Alike.refl stream).run lines session.calls).2.2

theorem after_audible (session : Session) (stream : Stream) (lines : Lines) :
    session.after stream lines = (session.audible stream lines).after stream lines := by
  obtain ⟨-, hsent, -⟩ := (Stream.Alike.refl stream).run lines session.calls
  simp only [after_eq, ← closed_audible, hsent]
  rfl

/-- Sessions that differ only in changes that cannot show leave the same on the lines, get the same
answers and end the same. Scratch values change by what is said to them and by what hooks do. -/
theorem only_audible_shows (session other : Session) (stream : Stream) (lines : Lines) :
    (session.audible stream lines = other.audible stream lines →
      session.after stream lines = other.after stream lines ∧
        stream.answers lines session.calls = stream.answers lines other.calls ∧
        (session.closed stream lines).map (·.1) = (other.closed stream lines).map (·.1)) ∧
      (∀ (stream : Stream) (patience : Patience) (lines : Lines) (call : Stream.Call),
        (stream.call patience lines call).2.1.scratch =
          (stream.scratchEdits call).foldl ScratchEdit.apply stream.scratch) ∧
      ∀ (stream : Stream) (patience : Patience) (request : Request) (lines : Lines),
        (HandlerResult.finish stream patience request lines).2.1.scratch =
          (stream.scratchEdits (.prepare request)).foldl ScratchEdit.apply stream.scratch := by
  refine ⟨fun h => ⟨?_, ?_, ?_⟩, fun stream patience lines call =>
    stream.scratch_call patience lines call, fun stream patience request lines =>
    stream.scratch_finish patience lines request⟩
  · rw [session.after_audible, h, ← other.after_audible]
  · rw [session.answers_audible, h, ← other.answers_audible]
  · rw [session.closed_audible, h, ← other.closed_audible]

/-- One session changes the status once the start frame has left and scratch values in the hook, the
other one changes scratch values at the end. -/
theorem only_audible_shows_past_late_status :
    let stream : Stream := ⟨0, Status.ok.statusCode, ∅, none, none, none, ∅, .notStarted⟩
    let request (hook : List HookStep) : Request := ⟨"GET", "/", none, hook, 0⟩
    let lines : Lines := fun _ => .recorder
    let mark : StreamEdit := .scratch (.set "user" .null)
    let session : Session := ⟨[
      (.untilDone, .prepare (request [.edit mark, .edit (.status 201)])),
      (.untilDone, .edit (.status 404)), (.untilDone, .write [1])], some (.untilDone, request [])⟩
    let other : Session := ⟨[(.untilDone, .prepare (request [.edit (.status 201)])),
      (.untilDone, .write [1]), (.untilDone, .edit mark)], some (.untilDone, request [])⟩
    session.audible stream lines = other.audible stream lines ∧
      (stream.run lines session.calls).1.status ≠ (stream.run lines other.calls).1.status ∧
      session.after stream lines = other.after stream lines ∧
      ((session.after stream lines 0).frames.map Frame.more?) = [none, some [1], none] := by
  intro stream request lines mark session other
  have haudible : session.audible stream lines = other.audible stream lines := rfl
  exact ⟨haudible, by decide, ((only_audible_shows session other stream lines).1 haudible).1,
    by decide⟩

end Session

end DocumentServer
