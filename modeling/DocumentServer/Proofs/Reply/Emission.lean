import DocumentServer.Proofs.Response.Sending
import DocumentServer.Proofs.Stream.Recording

/-! Replies as answers. Whatever a handler gives back, and whatever hooks run on the way if they are
quiet, the line of its request carries the beginning of one answer, and the reply is sent
successfully exactly when that answer is whole. -/
namespace DocumentServer.HandlerResult

open DocumentServer.Frame (answer Begun Whole begun_nil begun_answer whole_answer_iff not_whole_nil)

/-- What a handler gives back for a request, and the lines that it leaves. The request's line
carries nothing but what a stream sent that the handler gives back; no other line carries anything
of that stream, so it was started on the request's line or not at all. -/
inductive Arises (hooks : Request → Stream.Hook) (request : Request) : HandlerResult → Lines → Prop
  | full {response : Response} {lines : Lines} :
      (lines request.line).frames = [] → Arises hooks request (.ok (.full response)) lines
  | error {response : Response} {lines : Lines} :
      (lines request.line).frames = [] → Arises hooks request (.error response) lines
  | stream {stream : Stream} {lines : Lines} (calls : List (Patience × Stream.Call)) :
      stream.phase = .notStarted → (lines request.line).frames = [] →
      (∀ i, i ≠ request.line →
        ((stream.runWith hooks lines calls).2 i).frames = (lines i).frames) →
      Arises hooks request (.ok (.stream (stream.runWith hooks lines calls).1))
        (stream.runWith hooks lines calls).2

/-- A hook lets a stream that has not started go on. -/
def HookPasses (hook : Stream.Hook) (result : HandlerResult) (lines : Lines) : Prop :=
  ∀ stream, result = .ok (.stream stream) → stream.phase = .notStarted →
    (hook stream lines).1 = .done ()

/-- How frames look when sending them ended with `outcome`: there are none of them, or they are
those of an answer, which is whole if the outcome is success. -/
def Accounts (outcome : Outcome Unit) (frames : List Frame) : Prop :=
  (frames = [] ∧ outcome ≠ .done ()) ∨ ∃ status headers chunks last,
    frames = answer status headers chunks last ∧ (outcome = .done () ↔ last.isSome)

theorem Accounts.begun {outcome : Outcome Unit} {frames : List Frame}
    (h : Accounts outcome frames) : Begun frames := by
  obtain ⟨rfl, _⟩ | ⟨_, _, _, _, rfl, _⟩ := h
  · exact begun_nil
  · exact begun_answer ..

theorem Accounts.done_iff_whole {outcome : Outcome Unit} {frames : List Frame}
    (h : Accounts outcome frames) : outcome = .done () ↔ Whole frames := by
  obtain ⟨rfl, hfailed⟩ | ⟨_, _, _, _, rfl, hdone⟩ := h
  · exact iff_of_false hfailed not_whole_nil
  · rw [whole_answer_iff, hdone]

/-! ### Complete responses -/

theorem accounts_send (response : Response) (patience : Patience) {line : Line}
    (hline : line.frames = []) :
    Accounts (response.send patience line).1 (response.send patience line).2.frames := by
  rw [Response.send_eq]
  have hstart := line.frames_send patience response.startFrame
  rcases hsend : line.send patience response.startFrame with ⟨outcome, after⟩
  rw [hsend, hline, List.nil_append] at hstart
  by_cases hdone : outcome = .done ()
  · have hbody := after.frames_send patience (.body response.body false)
    simp only [hdone, ↓reduceIte] at hstart ⊢
    rw [hstart] at hbody
    by_cases hsent : (after.send patience (.body response.body false)).1 = .done ()
    · rw [if_pos hsent] at hbody
      exact .inr ⟨_, _, [], some response.body, hbody, by simp [hsent]⟩
    · rw [if_neg hsent] at hbody
      exact .inr ⟨_, _, [], none, hbody, by simp [hsent]⟩
  · simp only [hdone, ↓reduceIte] at hstart ⊢
    exact .inl ⟨hstart, hdone⟩

/-! ### Streams -/

/-- If nothing was sent elsewhere, the record is one of the given line. -/
theorem recorded_only {before : Nat → List Frame} {lines : Lines} {chunks : List Bytes}
    {last : Option Bytes} {phase : Phase} {i : Nat} {asked : Request → Prop}
    (h : Stream.Recorded asked before lines chunks last phase)
    (honly : ∀ j, j ≠ i → (lines j).frames = before j) :
    Stream.Recorded (·.line = i) before lines chunks last phase := by
  -- A line that carries an answer carries more than before, so it can only be line `i`.
  have hline {request : Request} {status : Nat} {headers : List (Bytes × Bytes)}
      (hcarried : Stream.Carried before lines request.line (answer status headers chunks last)) :
      request.line = i := by
    refine Decidable.byContradiction fun hne => ?_
    have h := honly _ hne
    rw [hcarried.frames] at h
    simp [answer] at h
  cases h with
  | notStarted hcarried hchunks hlast => exact .notStarted hcarried hchunks hlast
  | prepared _ hidle hended hcarried => exact .prepared (hline hcarried) hidle hended hcarried
  | closed _ hlast hcarried => exact .closed (hline hcarried) hlast hcarried

theorem accounts_of_recorded {before : Nat → List Frame} {lines : Lines} {chunks : List Bytes}
    {last : Option Bytes} {phase : Phase} {i : Nat} {outcome : Outcome Unit}
    (h : Stream.Recorded (·.line = i) before lines chunks last phase) (hbefore : before i = [])
    (hdone : outcome = .done () ↔ last.isSome) : Accounts outcome (lines i).frames := by
  cases h with
  | notStarted hcarried _ hlast =>
    refine .inl ⟨by rw [(hcarried i).frames, hbefore]; rfl, ?_⟩
    simp [hdone, hlast]
  | prepared hasked _ _ hcarried =>
    subst hasked
    exact .inr ⟨_, _, chunks, last, by rw [hcarried.frames, hbefore]; rfl, hdone⟩
  | closed hasked _ hcarried =>
    subst hasked
    exact .inr ⟨_, _, chunks, last, by rw [hcarried.frames, hbefore]; rfl, hdone⟩

section Finish

variable {stream : Stream} {lines : Lines} {chunks : List Bytes} {last : Option Bytes}
  {before : Nat → List Frame} {hook : Stream.Hook}

/-- A stream whose answer is whole is sent successfully as a reply. -/
theorem finish_done {asked : Request → Prop}
    (h : Stream.Recorded asked before lines chunks last stream.phase) (hlast : last.isSome)
    (patience : Patience) (request : Request) :
    (finishWith hook stream patience request lines).1 = .done () := by
  cases hphase : stream.phase with
  | notStarted =>
    rw [hphase] at h
    obtain ⟨_, _, rfl⟩ := h
    cases hlast
  | closed => simp [finishWith, finish, hphase]
  | prepared request writer =>
    rw [hphase] at h
    cases h with
    | prepared _ _ hended _ =>
      simp [finishWith, finish, Stream.writeEnd, Writer.writeEnd, hphase, hended, hlast]

theorem accounts_finish {request : Request}
    (h : Stream.Recorded (·.line = request.line) before lines chunks last stream.phase)
    (hbefore : before request.line = []) (hquiet : hook.Quiet) (patience : Patience) :
    Accounts (finishWith hook stream patience request lines).1
      ((finishWith hook stream patience request lines).2.2 request.line).frames := by
  have hasked : request.line = request.line := rfl
  refine accounts_of_recorded (h.finishWith patience hasked hquiet) hbefore ?_
  cases last with
  | none =>
    by_cases hsent : (finishWith hook stream patience request lines).1 = .done () <;> simp [hsent]
  | some final => simp [finish_done h rfl]

end Finish

section Emit

variable {hooks : Request → Stream.Hook} {request : Request} {result : HandlerResult}
  {lines : Lines}

/-- What a stream sent before it was given back is a record of its request's line. -/
theorem recorded_arises {stream : Stream} {calls : List (Patience × Stream.Call)}
    (hquiet : ∀ request, (hooks request).Quiet) (hfresh : stream.phase = .notStarted)
    (honly : ∀ i, i ≠ request.line →
      ((stream.runWith hooks lines calls).2 i).frames = (lines i).frames) :
    ∃ chunks last, Stream.Recorded (·.line = request.line) (fun i => (lines i).frames)
      (stream.runWith hooks lines calls).2 chunks last (stream.runWith hooks lines calls).1.phase :=
  have hstart := Stream.recorded_fresh (fun _ => True) hfresh lines
  ⟨_, _, recorded_only (hstart.runWith hooks calls fun _ _ _ _ => ⟨trivial, hquiet _⟩) honly⟩

theorem accounts_emit (h : Arises hooks request result lines)
    (hquiet : ∀ request, (hooks request).Quiet) (patience : Patience) :
    Accounts (result.emitWith (hooks request) patience request lines).1
      ((result.emitWith (hooks request) patience request lines).2 request.line).frames := by
  cases h with
  | full hline => simpa [emitWith, emit, sendFull] using accounts_send _ patience hline
  | error hline => simpa [emitWith, emit, sendFull] using accounts_send _ patience hline
  | stream calls hfresh hline honly =>
    obtain ⟨chunks, last, hrun⟩ := recorded_arises hquiet hfresh honly
    exact accounts_finish hrun hline (hquiet request) patience

end Emit

/-! ### Success -/

theorem writeEnd_succeeds {stream : Stream} {lines : Lines} {request : Request} {writer : Writer}
    (hphase : stream.phase = .prepared request writer) (hidle : writer.Idle)
    (haccepts : ∀ n, ((lines request.line).reception n).refusal = none) (data : Bytes) :
    (stream.writeEnd .untilDone data lines).1 = .done () := by
  have hwriter : (writer.writeEnd .untilDone data (lines request.line)).1 = .done () := by
    cases hended : writer.ended with
    | true => simp [Writer.writeEnd, hended]
    | false =>
      rw [hidle.writeEnd _ _ _ hended]
      exact Line.send_done _ _ (haccepts _)
  simp only [Stream.writeEnd, hphase]
  rcases hend : writer.writeEnd .untilDone data (lines request.line) with ⟨outcome, after, line⟩
  rw [hend] at hwriter
  simp only at hwriter
  rw [hwriter]

theorem finish_succeeds {stream : Stream} {lines : Lines} {chunks : List Bytes}
    {last : Option Bytes} {before : Nat → List Frame} {request : Request} {hook : Stream.Hook}
    (h : Stream.Recorded (·.line = request.line) before lines chunks last stream.phase)
    (haccepts : ∀ n, ((lines request.line).reception n).refusal = none) (hquiet : hook.Quiet)
    (hhook : stream.phase = .notStarted → (hook stream lines).1 = .done ()) :
    (finishWith hook stream .untilDone request lines).1 = .done () := by
  cases hphase : stream.phase with
  | closed => simp [finishWith, finish, hphase]
  | prepared request' writer =>
    rw [hphase] at h
    cases h with
    | prepared hasked hidle _ _ =>
      simpa [finishWith, finish, hphase] using
        writeEnd_succeeds hphase hidle (by simpa [hasked] using haccepts) []
  | notStarted =>
    have hpassed := hhook hphase
    have hlines := hquiet.lines stream lines
    rcases hrun : hook stream lines with ⟨outcome, ready, lines'⟩
    rw [hrun] at hpassed hlines
    obtain rfl : outcome = .done () := hpassed
    obtain rfl : lines' = lines := hlines
    have hsent := (lines' request.line).send_done
      (.start (ready.readied request).status.val (ready.readied request).headers.wire) (haccepts _)
    simp only [finishWith, Stream.prepareWith, hphase, hrun, Stream.start_eq, hsent, ↓reduceIte]
    exact writeEnd_succeeds rfl Writer.idle_fresh (by simpa using haccepts) []

section Answers

variable {hooks : Request → Stream.Hook} {request : Request} {result : HandlerResult}
  {lines : Lines}

theorem emit_succeeds (h : Arises hooks request result lines)
    (hquiet : ∀ request, (hooks request).Quiet)
    (haccepts : ∀ n, ((lines request.line).reception n).refusal = none)
    (hhook : HookPasses (hooks request) result lines) :
    (result.emitWith (hooks request) .untilDone request lines).1 = .done () := by
  have hfull (response : Response) : (sendFull response .untilDone request lines).1 = .done () :=
    response.send_done haccepts
  cases h with
  | full => exact hfull _
  | error => exact hfull _
  | stream calls hfresh hline honly =>
    obtain ⟨chunks, last, hrun⟩ := recorded_arises hquiet hfresh honly
    exact finish_succeeds hrun haccepts (hquiet request) (hhook _ rfl)

/-- Every reply begins an answer on the line of its request and is sent successfully exactly when
the answer is whole, whatever hooks do but prepare the stream or send past it, which the hooks that
requests ask for never do (`Stream.Hook.quiet_own`). If the line refuses nothing and the hook lets
the stream start, the answer is whole. -/
theorem emit_answers (h : Arises hooks request result lines)
    (hquiet : ∀ request, (hooks request).Quiet) (patience : Patience) :
    let after := result.emitWith (hooks request) patience request lines
    let frames := (after.2 request.line).frames
    Begun frames ∧ (after.1 = .done () ↔ Whole frames) ∧
      (patience = .untilDone → (∀ n, ((lines request.line).reception n).refusal = none) →
        HookPasses (hooks request) result lines →
          frames.countP Frame.isStart = 1 ∧ frames.countP Frame.isFinal = 1) := by
  have haccounts := accounts_emit h hquiet patience
  refine ⟨haccounts.begun, haccounts.done_iff_whole, ?_⟩
  rintro rfl haccepts hhook
  exact (haccounts.done_iff_whole.1 (emit_succeeds h hquiet haccepts hhook)).counts

/-- A handler that prepares its stream for the request's line only. -/
theorem Arises.of_requests {stream : Stream} (calls : List (Patience × Stream.Call))
    (hquiet : ∀ request, (hooks request).Quiet) (hfresh : stream.phase = .notStarted)
    (hline : (lines request.line).frames = [])
    (hasked : ∀ entry ∈ calls, ∀ request', entry.2.request? = some request' →
      request'.line = request.line) :
    Arises hooks request (.ok (.stream (stream.runWith hooks lines calls).1))
      (stream.runWith hooks lines calls).2 := by
  refine .stream calls hfresh hline fun i hi => ?_
  have hstart := Stream.recorded_fresh (·.line = request.line) hfresh lines
  have hrun := hstart.runWith hooks calls fun entry hentry request' hrequest =>
    ⟨hasked entry hentry request' hrequest, hquiet request'⟩
  exact hrun.unchanged fun request' hasked => by rw [hasked]; exact hi.symm

end Answers

/-- A stream whose second chunk is refused and whose writer is ended behind its back, and a stream
that is left unstarted, on a line that refuses nothing. The hook looks at what the headers hold, and
passes a stream that has a content type. -/
theorem emit_answers_ended_writer :
    let request : Request := ⟨"GET", "/", none, [], 0⟩
    let stream : Stream := ⟨0, Status.ok.statusCode, ∅, some "text/csv", none, none, ∅, .notStarted⟩
    let hook : Stream.Hook := fun stream lines =>
      ((if stream.contentType.isSome then .done () else .failed (.invalidArgument "no type")),
        { stream with headers := stream.headers.append "X-Type" (stream.contentType.getD "") },
        lines)
    let lines : Lines := fun _ => .fresh fun n => ⟨false, if n = 2 then some "gone" else none⟩
    let calls : List (Patience × Stream.Call) := [(.untilDone, .prepare request),
      (.untilDone, .write [1]), (.untilDone, .write [2]), (.untilDone, .writer (.writeEnd [3]))]
    let before := stream.runWith (fun _ => hook) lines calls
    let result : HandlerResult := .ok (.stream before.1)
    let unstarted : HandlerResult := .ok (.stream stream)
    let frames := ((unstarted.emitWith hook .untilDone request fun _ => .recorder).2 0).frames
    hook.Quiet ∧ Arises (fun _ => hook) request result before.2 ∧
      Whole ((result.emitWith hook .untilDone request before.2).2 0).frames ∧
      Arises (fun _ => hook) request unstarted (fun _ => .recorder) ∧
      frames.countP Frame.isStart = 1 ∧ frames.countP Frame.isFinal = 1 := by
  intro request stream hook lines calls before result unstarted frames
  have hquiet : hook.Quiet := ⟨fun _ _ h => h, fun _ _ => rfl⟩
  have harises : Arises (fun _ => hook) request result before.2 :=
    .of_requests calls (fun _ => hquiet) rfl rfl (by simp [calls, Stream.Call.request?])
  have hunstarted : Arises (fun _ => hook) request unstarted fun _ => .recorder :=
    .of_requests [] (fun _ => hquiet) rfl rfl (by simp)
  have hhook : HookPasses hook unstarted fun _ => .recorder := by
    intro stream' h _
    obtain rfl : stream = stream' := by injections
    rfl
  exact ⟨hquiet, harises, (emit_answers harises (fun _ => hquiet) .untilDone).2.1.1 (by decide),
    hunstarted,
    (emit_answers hunstarted (fun _ => hquiet) .untilDone).2.2 rfl (fun _ => rfl) hhook⟩

end DocumentServer.HandlerResult
