import DocumentServer.Proofs.Stream.Recording

/-! Sessions: calls on a stream and on its writer in any order, each waited for or given up, over
lines that accept and refuse as they like, with quiet hooks of any kind, and at the end perhaps the
stream given back as a reply. Whatever happens, one line carries the beginning of one answer, whose
chunks are those of the writes that succeeded and whose final piece is that of the first ending that
succeeded. -/
namespace DocumentServer

open DocumentServer.Frame (answer begun_nil begun_answer filterMap_more?_answer
  filterMap_last?_answer)

/-- Calls on a stream, and the request that it is sent for as a reply in the end, if it is. -/
structure Session where
  calls : List (Patience × Stream.Call)
  closing : Option (Patience × Request)

namespace Session

def requests (session : Session) : List Request :=
  session.calls.filterMap (·.2.request?) ++ (session.closing.map (·.2)).toList

variable (session : Session) (hooks : Request → Stream.Hook) (stream : Stream) (lines : Lines)

def closedWith : Option (Outcome Unit × Lines) :=
  let (stream, lines) := stream.runWith hooks lines session.calls
  session.closing.map fun closing =>
    HandlerResult.emitWith (hooks closing.2) (.ok (.stream stream)) closing.1 closing.2 lines

def afterWith : Lines :=
  ((session.closedWith hooks stream lines).map (·.2)).getD
    (stream.runWith hooks lines session.calls).2

/-- The chunks of the writes that succeed, in their order. -/
def writtenWith : List Bytes :=
  (stream.succeededWith hooks lines session.calls).filterMap (·.chunk?)

/-- The final pieces of the endings that succeed, in their order. The reply ends a stream that was
not closed before with an empty piece. -/
def endingsWith : List Bytes :=
  let (before, _) := stream.runWith hooks lines session.calls
  (stream.succeededWith hooks lines session.calls).filterMap (·.last?) ++
    if before.bodyLength? = none ∧
        (session.closedWith hooks stream lines).map (·.1) = some (.done ()) then
      [[]]
    else []

/-- How the stream ends as a reply, with the hooks that requests ask for. -/
abbrev closed := session.closedWith .own stream lines

/-- The lines once the session is over, with the hooks that requests ask for. -/
abbrev after := session.afterWith .own stream lines

theorem closed_eq :
    session.closed stream lines =
      session.closing.map fun closing =>
        HandlerResult.emit (.ok (.stream (stream.run lines session.calls).1)) closing.1 closing.2
          (stream.run lines session.calls).2 := by
  simp only [closedWith, Stream.runWith_own, HandlerResult.emitWith_own]

theorem after_eq :
    session.after stream lines =
      ((session.closed stream lines).map (·.2)).getD (stream.run lines session.calls).2 := by
  unfold after afterWith
  rw [Stream.runWith_own]

end Session

namespace Stream

/-- What a record says about the lines. -/
theorem Recorded.frames {asked : Request → Prop} {before : Nat → List Frame} {lines : Lines}
    {chunks : List Bytes} {last : Option Bytes} {phase : Phase}
    (h : Recorded asked before lines chunks last phase) :
    ∃ i sent, Carried before lines i sent ∧
      (sent ≠ [] → ∃ request, asked request ∧ request.line = i) ∧
      Frame.Begun sent ∧ sent.filterMap Frame.more? = chunks ∧
      sent.filterMap Frame.last? = last.toList := by
  cases h with
  | notStarted hcarried hchunks hlast =>
    subst hchunks hlast
    exact ⟨0, [], hcarried 0, fun h => absurd rfl h, begun_nil, rfl, rfl⟩
  | prepared hasked _ _ hcarried =>
    exact ⟨_, _, hcarried, fun _ => ⟨_, hasked, rfl⟩, begun_answer .., filterMap_more?_answer ..,
      filterMap_last?_answer ..⟩
  | closed hasked _ hcarried =>
    exact ⟨_, _, hcarried, fun _ => ⟨_, hasked, rfl⟩, begun_answer .., filterMap_more?_answer ..,
      filterMap_last?_answer ..⟩

end Stream

namespace Session

variable {stream : Stream} {lines : Lines} {hooks : Request → Stream.Hook}

/-- The reply counts as an ending only if the stream was not closed, and then it is the last one. -/
theorem endings_head? (session : Session) (stream : Stream) (lines : Lines) {before : Stream}
    {lines' : Lines} {patience : Patience} {request : Request} {asked : Request → Prop}
    {sent : Nat → List Frame} {chunks : List Bytes}
    (hbefore : stream.runWith hooks lines session.calls = (before, lines'))
    (hclosing : session.closing = some (patience, request))
    (hrun : Stream.Recorded asked sent lines' chunks
      ((stream.succeededWith hooks lines session.calls).filterMap Stream.Call.last?).head?
      before.phase) :
    (session.endingsWith hooks stream lines).head? =
      ((stream.succeededWith hooks lines session.calls).filterMap Stream.Call.last?).head?.or
        (if (HandlerResult.finishWith (hooks request) before patience request lines').1 = .done ()
          then some [] else none) := by
  simp only [endingsWith, closedWith, hbefore, hclosing, HandlerResult.emitWith,
    List.head?_append]
  by_cases hlength : before.bodyLength? = none
  · by_cases hdone :
      (HandlerResult.finishWith (hooks request) before patience request lines').1 = .done ()
    · simp [hlength, hdone]
    · simp [hdone]
  · cases hphase : before.phase with
    | notStarted => simp [Stream.bodyLength?, hphase] at hlength
    | prepared => simp [Stream.bodyLength?, hphase] at hlength
    | closed length =>
      rw [hphase] at hrun
      cases hrun with
      | closed _ hlast _ =>
        obtain ⟨final, hfinal⟩ := Option.isSome_iff_exists.1 hlast
        rw [hfinal, Option.some_or, Option.some_or]

theorem recorded (session : Session)
    (hquiet : ∀ request ∈ session.requests, (hooks request).Quiet)
    (hfresh : stream.phase = .notStarted) (lines : Lines) :
    ∃ phase, Stream.Recorded (· ∈ session.requests) (fun j => (lines j).frames)
      (session.afterWith hooks stream lines) (session.writtenWith hooks stream lines)
      (session.endingsWith hooks stream lines).head? phase := by
  have hstart := Stream.recorded_fresh (· ∈ session.requests) hfresh lines
  have hrun := hstart.runWith hooks session.calls fun entry hentry request hrequest =>
    have hasked : request ∈ session.requests :=
      List.mem_append_left _ (List.mem_filterMap.2 ⟨entry, hentry, hrequest⟩)
    ⟨hasked, hquiet request hasked⟩
  simp only [List.nil_append, Option.none_or] at hrun
  rcases hbefore : stream.runWith hooks lines session.calls with ⟨before, lines'⟩
  rw [hbefore] at hrun
  cases hclosing : session.closing with
  | none =>
    refine ⟨before.phase, ?_⟩
    simpa [afterWith, closedWith, writtenWith, endingsWith, hclosing, hbefore] using hrun
  | some closing =>
    obtain ⟨patience, request⟩ := closing
    have hasked : request ∈ session.requests := by simp [requests, hclosing]
    have hfinish := hrun.finishWith patience hasked (hquiet request hasked)
    refine ⟨(HandlerResult.finishWith (hooks request) before patience request lines').2.1.phase, ?_⟩
    rw [endings_head? session stream lines hbefore hclosing hrun]
    simpa [afterWith, closedWith, writtenWith, hclosing, hbefore, HandlerResult.emitWith] using
      hfinish

/-- The frames of a session go to one request's line, whatever its hooks do but prepare the stream
or send past it, which the hooks that requests ask for never do (`Stream.Hook.quiet_own`). They
begin an answer; its chunks are those of the successful writes, each in a frame of its own, and its
final piece, if it has come that far, is that of the first successful ending. -/
theorem sends_one_answer (session : Session) (hooks : Request → Stream.Hook)
    (hquiet : ∀ request ∈ session.requests, (hooks request).Quiet) (stream : Stream)
    (hfresh : stream.phase = .notStarted) (lines : Lines) :
    ∃ i sent,
      (∀ j, (session.afterWith hooks stream lines j).frames =
        (lines j).frames ++ if j = i then sent else []) ∧
      (sent ≠ [] → ∃ request ∈ session.requests, request.line = i) ∧
      Frame.Begun sent ∧
      sent.filterMap Frame.more? = session.writtenWith hooks stream lines ∧
      sent.filterMap Frame.last? = (session.endingsWith hooks stream lines).take 1 := by
  obtain ⟨phase, h⟩ := session.recorded hquiet hfresh lines
  obtain ⟨i, sent, hcarried, hasked, hbegun, hmore, hlast⟩ := h.frames
  refine ⟨i, sent, hcarried, hasked, hbegun, hmore, ?_⟩
  rw [hlast]
  cases session.endingsWith hooks stream lines <;> rfl

/-- A start refused on one line and accepted on another, then a chunk, a chunk given up, an empty
chunk and an ending on the writer, and the reply. The hooks change the headers as they find them and
refuse every request for a stream that has an override. -/
theorem sends_one_answer_past_refusal :
    let stream : Stream := ⟨0, Status.ok.statusCode, ∅, none, none, none, ∅, .notStarted⟩
    let hook : Stream.Hook := fun stream lines =>
      ((if stream.keepAlive = some false then .failed (.invalidArgument "kept") else .done ()),
        { stream with headers := stream.headers.append "X-Tag" (toString stream.id) }, lines)
    let request (line : Nat) : Request := ⟨"GET", "/", none, [], line⟩
    let lines : Lines := fun i => .fresh fun n => ⟨n = 2, if i = 0 then some "gone" else none⟩
    let session : Session := ⟨[(.untilDone, .prepare (request 0)),
      (.untilDone, .prepare (request 1)), (.untilDone, .write [1]), (.onePoll, .write [2]),
      (.untilDone, .writer (.write [])), (.untilDone, .writer (.writeEnd [3]))],
      some (.untilDone, request 0)⟩
    hook.Quiet ∧ stream.phase = .notStarted ∧ ∃ i sent,
      (∀ j, (session.afterWith (fun _ => hook) stream lines j).frames =
        (lines j).frames ++ if j = i then sent else []) ∧
      (sent ≠ [] → ∃ request ∈ session.requests, request.line = i) ∧
      Frame.Begun sent ∧ sent.filterMap Frame.more? = [[1], []] ∧
      sent.filterMap Frame.last? = [[3]] := by
  intro stream hook request lines session
  have hquiet : hook.Quiet := ⟨fun _ _ h => h, fun _ _ => rfl⟩
  have hwritten : session.writtenWith (fun _ => hook) stream lines = [[1], []] := by decide
  have hendings : (session.endingsWith (fun _ => hook) stream lines).take 1 = [[3]] := by decide
  have h := session.sends_one_answer (fun _ => hook) (fun _ _ => hquiet) stream rfl lines
  rw [hwritten, hendings] at h
  exact ⟨hquiet, rfl, h⟩

end Session

end DocumentServer
