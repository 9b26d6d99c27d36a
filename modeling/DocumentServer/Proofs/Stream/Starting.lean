import DocumentServer.Proofs.Stream.Retrying

/-! Starts with a hook. The hook makes its changes one after the other until a step of it fails. If
none fails, the start frame is offered as the hook left the stream: with its status, with all its
headers in small letters, and behind them with the content type and the content length that the
headers lack. -/
namespace DocumentServer

namespace HookStep

def fault? : HookStep → Option ResponseError
  | fail message => some (.invalidArgument message)
  | edit (.status code) =>
    if 100 ≤ code ∧ code ≤ 599 then none else some (.statusOutOfRange code)
  | edit _ => none
  | write _ => some (.state .writeBeforeStart)
  | writeEnd _ => some (.state .notStarted)

def change? : HookStep → Option StreamEdit
  | edit change => some change
  | _ => none

/-- Why a hook fails, which is why its first failing step does. -/
def failure? (hook : List HookStep) : Option ResponseError := hook.findSome? fault?

/-- The changes that a hook makes before it fails or ends. -/
def changes (hook : List HookStep) : List StreamEdit :=
  (hook.takeWhile (·.fault?.isNone)).filterMap change?

end HookStep

namespace Stream

def wireHeaders (stream : Stream) : List (Bytes × Bytes) :=
  (stream.headers.entries.map fun header =>
      (.ofString (Ascii.lower header.name), .ofString header.value)) ++
    stream.headers.lacking "content-type"
      (stream.contentType.getD "application/octet-stream") ++
    match stream.contentLength with
    | some length => stream.headers.lacking "content-length" (toString length)
    | none => []

theorem wire_startHeaders (stream : Stream) : stream.startHeaders.wire = stream.wireHeaders := by
  unfold startHeaders wireHeaders
  cases stream.contentLength with
  | none =>
    rw [Headers.wire_contentType, List.append_nil]
    rfl
  | some length =>
    dsimp only
    rw [Headers.wire_contentLength, Headers.wire_contentType]
    rfl

/-! ### Hooks -/

variable {stream : Stream} {request : Request}

theorem edit_eq (stream : Stream) (edit : StreamEdit) :
    stream.edit edit =
      match (HookStep.edit edit).fault? with
      | some error => .error error
      | none => .ok (stream.changed edit) := by
  cases edit with
  | status code =>
    simp only [changed, Stream.edit, HookStep.fault?, StatusCode.ofNat?]
    by_cases hcode : 100 ≤ code ∧ code ≤ 599 <;> simp [hcode]
  | _ => rfl

/-- A hook makes its changes up to the first step that fails, and fails as that step does. -/
theorem runHook_eq (hook : List HookStep) (stream : Stream) :
    runHook hook stream =
      (match HookStep.failure? hook with
        | some error => .error error
        | none => .ok (),
      stream.edited (HookStep.changes hook)) := by
  induction hook generalizing stream with
  | nil => rfl
  | cons step rest ih =>
    cases step with
    | fail => rfl
    | write => rfl
    | writeEnd => rfl
    | edit edit =>
      rw [runHook, edit_eq]
      cases hfault : (HookStep.edit edit).fault? with
      | some error => simp [HookStep.failure?, HookStep.changes, hfault, edited]
      | none =>
        dsimp only
        rw [ih]
        simp [HookStep.failure?, HookStep.changes, hfault, HookStep.change?, edited]

/-! ### Starts -/

/-- A start offers one frame if the hook does not fail, and changes nothing on the lines if it
does. -/
theorem prepare_fresh (hfresh : stream.phase = .notStarted) (request : Request)
    (patience : Patience) (lines : Lines) :
    let hooked := stream.edited (HookStep.changes request.hook)
    let sending := (lines request.line).send patience (.start hooked.status.val hooked.wireHeaders)
    stream.prepare patience request lines =
      match HookStep.failure? request.hook with
      | some error => (.failed error, hooked, lines)
      | none =>
        (sending.1,
          if sending.1 = .done () then (hooked.readied request).withWriter request .fresh
            else hooked.readied request,
          lines.set request.line sending.2) := by
  intro hooked sending
  simp only [prepare_eq, hfresh, runHook_eq]
  cases HookStep.failure? request.hook with
  | some error => rfl
  | none =>
    have hstart := hooked.start_eq patience request lines
    simp only [readied, wire_startHeaders] at hstart
    exact hstart

/-- A stream that has not started sends its start frame as the hook of the request leaves it, or
nothing if the hook fails. -/
theorem prepare_sends (hfresh : stream.phase = .notStarted) (request : Request)
    (patience : Patience) (lines : Lines) :
    let hooked := stream.edited (HookStep.changes request.hook)
    let frame := Frame.start hooked.status.val hooked.wireHeaders
    let (outcome, after, lines') := stream.prepare patience request lines
    (∀ error, HookStep.failure? request.hook = some error →
      outcome = .failed error ∧ after = hooked ∧ lines' = lines) ∧
    (HookStep.failure? request.hook = none →
      outcome = ((lines request.line).send patience frame).1 ∧
      after.keepAlive = some ((hooked.keepAlive <|> request.keepAlive).getD true) ∧
      after = { hooked with
        keepAlive := after.keepAlive, headers := after.headers, phase := after.phase } ∧
      (outcome = .done () → (∃ writer, after.phase = .prepared request writer) ∧
        (lines' request.line).frames = (lines request.line).frames ++ [frame]) ∧
      (outcome ≠ .done () → after.phase = .notStarted ∧
        (lines' request.line).frames = (lines request.line).frames) ∧
      ∀ i ≠ request.line, lines' i = lines i) := by
  intro hooked frame
  have hsent := (lines request.line).frames_send patience frame
  rw [prepare_fresh hfresh]
  cases HookStep.failure? request.hook with
  | some error =>
    refine ⟨fun error' herror => ?_, nofun⟩
    cases herror
    exact ⟨rfl, rfl, rfl⟩
  | none =>
    have hunstarted : hooked.phase = .notStarted := (stream.phase_edited _).trans hfresh
    refine ⟨nofun, fun _ => ⟨rfl, ?_, ?_, fun hdone => ?_, fun hrefused => ?_,
      fun i hi => Lines.set_of_ne _ _ hi⟩⟩
    · split <;> rfl
    · split <;> rfl
    · rw [if_pos hdone] at hsent
      rw [Lines.set_self]
      exact ⟨⟨.fresh, congrArg Stream.phase (if_pos hdone)⟩, hsent⟩
    · rw [if_neg hrefused, List.append_nil] at hsent
      rw [Lines.set_self]
      exact ⟨(congrArg Stream.phase (if_neg hrefused)).trans hunstarted, hsent⟩

/-- The hook puts the content type in other letters out of the way and overrules the request. A hook
that fails keeps what it changed before. -/
theorem prepare_sends_hooked_headers :
    let headers : Headers := ⟨[⟨"X-Tag", "1"⟩, ⟨"CONTENT-type", "text/html"⟩, ⟨"x-tag", "2"⟩]⟩
    let stream : Stream := ⟨0, Status.ok.statusCode, headers, none, none, none, ∅, .notStarted⟩
    let hook : List HookStep := [.edit (.status 404), .edit (.headers (.erase "Content-Type")),
      .edit (.contentType "text/csv"), .edit (.contentLength 12), .edit (.keepAlive false),
      .edit (.scratch (.set "k" .null))]
    let passing : Request := ⟨"GET", "/", some true, hook, 0⟩
    let failing : Request := ⟨"GET", "/", some true, hook ++ [.write [], .edit (.status 500)], 0⟩
    let (outcome, after, lines) := stream.prepare .untilDone passing fun _ => .recorder
    let (outcome', after', lines') := stream.prepare .untilDone failing fun _ => .recorder
    stream.phase = .notStarted ∧
      outcome = .done () ∧ after.keepAlive = some false ∧
      (lines 0).frames = [.start 404 [(.ofString "x-tag", .ofString "1"),
        (.ofString "x-tag", .ofString "2"), (.ofString "content-type", .ofString "text/csv"),
        (.ofString "content-length", .ofString "12")]] ∧
      outcome' = .failed (.state .writeBeforeStart) ∧ after'.status.val = 404 ∧
      lines' = fun _ => .recorder := by
  intro headers stream hook passing failing
  have hstarts := prepare_sends (show stream.phase = .notStarted from rfl) passing .untilDone
    fun _ => .recorder
  have hfails := prepare_sends (show stream.phase = .notStarted from rfl) failing .untilDone
    fun _ => .recorder
  obtain ⟨-, hstarts⟩ := hstarts
  obtain ⟨hfails, -⟩ := hfails
  obtain ⟨houtcome, hkeep, -, hdone, -⟩ := hstarts (by decide)
  obtain ⟨houtcome', hafter', hlines'⟩ := hfails (.state .writeBeforeStart) (by decide)
  have haccepted := houtcome.trans (Line.send_done _ _ rfl)
  refine ⟨rfl, haccepted, hkeep.trans (by decide), (hdone haccepted).2.trans (by decide +kernel),
    houtcome', ?_, hlines'⟩
  rw [hafter']
  decide

end Stream

end DocumentServer
