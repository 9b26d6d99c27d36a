import DocumentServer.Proofs.Stream.Recording

/-! Lines over time. No call takes a frame back or changes what a line does with later ones, so what
a line carried stays a beginning of what it carries. Its start frame therefore tells what the stream
was when it started, whatever was changed and sent since. -/
namespace DocumentServer

/-- The second line carries the frames of the first and perhaps more, and treats others alike. -/
structure Line.Grows (line line' : Line) : Prop where
  frames : line.frames <+: line'.frames
  reception : line'.reception = line.reception

/-- Every line has grown or stayed. -/
def Lines.Grow (lines lines' : Lines) : Prop := ∀ i, (lines i).Grows (lines' i)

namespace Line

theorem grows_refl (line : Line) : line.Grows line := ⟨List.prefix_rfl, rfl⟩

theorem Grows.trans {line line' line'' : Line} (h : line.Grows line') (h' : line'.Grows line'') :
    line.Grows line'' :=
  ⟨h.frames.trans h'.frames, h'.reception.trans h.reception⟩

theorem grows_send (line : Line) (patience : Patience) (frame : Frame) :
    line.Grows (line.send patience frame).2 := by
  refine ⟨?_, line.reception_send patience frame⟩
  rw [frames_send]
  exact List.prefix_append _ _

end Line

namespace Lines

theorem grow_refl (lines : Lines) : lines.Grow lines := fun i => (lines i).grows_refl

theorem Grow.trans {lines lines' lines'' : Lines} (h : lines.Grow lines')
    (h' : lines'.Grow lines'') : lines.Grow lines'' :=
  fun i => (h i).trans (h' i)

theorem grow_set {lines : Lines} {i : Nat} {line : Line} (h : (lines i).Grows line) :
    lines.Grow (lines.set i line) := by
  intro j
  by_cases hj : j = i
  · subst hj
    rwa [set_self]
  · rw [set_of_ne _ _ hj]
    exact (lines j).grows_refl

end Lines

namespace Writer

variable (writer : Writer) (patience : Patience) (line : Line)

theorem grows_drainQueue (chunks : List Bytes) :
    line.Grows (drainQueue patience chunks writer line).2.2 := by
  induction chunks generalizing writer line with
  | nil => exact line.grows_refl
  | cons chunk rest ih =>
    have hsend := line.grows_send patience (.body chunk true)
    rw [drainQueue]
    rcases hsent : line.send patience (.body chunk true) with ⟨outcome, after⟩
    rw [hsent] at hsend
    cases outcome with
    | done => exact hsend.trans (ih _ after)
    | failed => exact hsend
    | cancelled => exact hsend

theorem grows_writeEnd (data : Bytes) : line.Grows (writer.writeEnd patience data line).2.2 := by
  have hdrain := writer.grows_drainQueue patience line writer.queue
  unfold writeEnd drain
  split
  next => exact line.grows_refl
  next =>
    rcases hdrained : drainQueue patience writer.queue writer line with ⟨outcome, after, drained⟩
    rw [hdrained] at hdrain
    cases outcome with
    | failed => exact hdrain
    | cancelled => exact hdrain
    | done =>
      have hsend := drained.grows_send patience (.body data false)
      dsimp only
      rcases hsent : drained.send patience (.body data false) with ⟨outcome, sent⟩
      rw [hsent] at hsend
      cases outcome <;> exact hdrain.trans hsend

theorem grows_call (call : Call) : line.Grows (writer.call patience line call).2.2 := by
  cases call with
  | write data =>
    rw [Writer.call, write]
    split
    next => exact line.grows_refl
    next => exact grows_drainQueue ..
  | drain => exact grows_drainQueue ..
  | writeEnd data => exact grows_writeEnd ..
  | enableCompression => exact line.grows_refl
  | enableChunking => exact line.grows_refl

end Writer

namespace Stream

variable (stream : Stream) (patience : Patience) (lines : Lines)

theorem grow_prepare (request : Request) :
    lines.Grow (stream.prepare patience request lines).2.2 := by
  rw [prepare_eq]
  split
  next => exact lines.grow_refl
  next => exact lines.grow_refl
  next =>
    rcases runHook request.hook stream with ⟨passed, ready⟩
    cases passed with
    | error => exact lines.grow_refl
    | ok =>
      dsimp only
      rw [start_eq]
      exact Lines.grow_set (Line.grows_send ..)

theorem grow_writeEnd (data : Bytes) : lines.Grow (stream.writeEnd patience data lines).2.2 := by
  unfold writeEnd
  split
  next => exact lines.grow_refl
  next => exact lines.grow_refl
  next request writer _ =>
    have hend := writer.grows_writeEnd patience (lines request.line) data
    rcases hended : writer.writeEnd patience data (lines request.line) with ⟨outcome, after, line⟩
    rw [hended] at hend
    cases outcome <;> exact Lines.grow_set hend

theorem grow_callWriter (call : Writer.Call) :
    lines.Grow (stream.callWriter patience call lines).2.2 := by
  unfold callWriter
  split
  next request writer _ => exact Lines.grow_set (writer.grows_call patience _ call)
  next => exact lines.grow_refl

theorem grow_call (call : Call) : lines.Grow (stream.call patience lines call).2.2 := by
  cases call with
  | prepare request => exact stream.grow_prepare patience lines request
  | writeEnd data => exact stream.grow_writeEnd patience lines data
  | write data =>
    rw [Stream.call, write]
    split
    next => exact lines.grow_refl
    next => exact lines.grow_refl
    next request writer _ => exact Lines.grow_set (writer.grows_call patience _ (.write data))
  | drain =>
    rw [Stream.call, drain]
    split
    next => exact lines.grow_refl
    next => exact lines.grow_refl
    next request writer _ => exact Lines.grow_set (writer.grows_call patience _ .drain)
  | writer call => exact stream.grow_callWriter patience lines call
  | edit edit =>
    rw [Stream.call]
    split <;> exact lines.grow_refl

theorem grow_run (calls : List (Patience × Call)) : lines.Grow (stream.run lines calls).2 := by
  induction calls generalizing stream lines with
  | nil => exact lines.grow_refl
  | cons entry rest ih =>
    obtain ⟨patience, call⟩ := entry
    exact (stream.grow_call patience lines call).trans (ih _ _)

theorem grow_finish (request : Request) :
    lines.Grow (HandlerResult.finish stream patience request lines).2.2 := by
  unfold HandlerResult.finish
  split
  next => exact lines.grow_refl
  next => exact stream.grow_writeEnd patience lines []
  next =>
    have hprepare := stream.grow_prepare patience lines request
    rcases hprepared : stream.prepare patience request lines with ⟨outcome, after, lines'⟩
    rw [hprepared] at hprepare
    cases outcome with
    | done => exact hprepare.trans (after.grow_writeEnd patience lines' [])
    | failed => exact hprepare
    | cancelled => exact hprepare

/-! ### Start frames -/

/-- The stream as the first call finds it that starts it, or as it is in the end. -/
def opening (stream : Stream) (lines : Lines) : List (Patience × Call) → Stream
  | [] => stream
  | (patience, call) :: rest =>
    let (_, after, lines') := stream.call patience lines call
    match after.phase with
    | .notStarted => after.opening lines' rest
    | _ => stream

/-- The start frame of a stream that is in this state when it starts. -/
def startFrame (stream : Stream) : Frame := .start stream.status.val stream.startHeaders.wire

variable {stream : Stream} {request : Request}

/-- A stream that has not started sends its start frame when it is prepared, if the line takes it,
and nothing otherwise. -/
theorem prepare_unstarted (hfresh : stream.phase = .notStarted) (hhook : request.hook = [])
    (patience : Patience) (lines : Lines) :
    let sending := (lines request.line).send patience stream.startFrame
    let after := stream.prepare patience request lines
    after.1 = sending.1 ∧ after.2.2 = lines.set request.line sending.2 ∧
      (sending.1 = .done () → ∃ writer, after.2.1.phase = .prepared request writer) ∧
      (sending.1 ≠ .done () → after.2.1.phase = .notStarted) := by
  have hstart := stream.start_eq patience request lines
  simp only [prepare_eq, hfresh, hhook, runHook]
  rw [hstart]
  refine ⟨rfl, rfl, fun hdone => ⟨.fresh, ?_⟩, fun hrefused => ?_⟩
  · rw [startFrame] at hdone
    exact congrArg Stream.phase (if_pos hdone)
  · rw [startFrame] at hrefused
    exact (congrArg Stream.phase (if_neg hrefused)).trans hfresh

/-- A call leaves a stream unstarted and its lines as they were, or sends the start frame. -/
theorem call_unstarted (hfresh : stream.phase = .notStarted) (hhook : request.hook = [])
    {call : Call} (hasked : ∀ request', call.request? = some request' → request' = request)
    (patience : Patience) (lines : Lines) :
    let after := stream.call patience lines call
    (after.2.1.phase = .notStarted ∧
        (after.2.2 request.line).frames = (lines request.line).frames) ∨
      (after.2.1.phase ≠ .notStarted ∧
        (after.2.2 request.line).frames =
          (lines request.line).frames ++ [stream.startFrame]) := by
  cases call with
  | prepare request' =>
    obtain rfl := hasked request' rfl
    obtain ⟨-, hlines, hstarted, hrefused⟩ := prepare_unstarted hfresh hhook patience lines
    have hsent := (lines request'.line).frames_send patience stream.startFrame
    simp only [Stream.call]
    rw [hlines, Lines.set_self, hsent]
    by_cases hdone : ((lines request'.line).send patience stream.startFrame).1 = .done ()
    · obtain ⟨writer, hphase⟩ := hstarted hdone
      exact .inr ⟨by simp [hphase], by rw [if_pos hdone]⟩
    · exact .inl ⟨hrefused hdone, by rw [if_neg hdone, List.append_nil]⟩
  | write data => exact .inl (by simp [Stream.call, write, hfresh])
  | drain => exact .inl (by simp [Stream.call, drain, hfresh])
  | writeEnd data => exact .inl (by simp [Stream.call, writeEnd, hfresh])
  | writer call => exact .inl (by simp [Stream.call, callWriter, hfresh])
  | edit edit =>
    refine .inl ?_
    simp only [Stream.call]
    cases hedit : stream.edit edit with
    | ok after => exact ⟨(phase_edit hedit).trans hfresh, rfl⟩
    | error => exact ⟨hfresh, rfl⟩

/-- A stream that is sent as a reply before it has started starts as it is. -/
theorem startFrame_finish (hhook : request.hook = []) (hfresh : stream.phase = .notStarted)
    {lines : Lines} (haccepts : ∀ n, ((lines request.line).reception n).refusal = none) :
    (lines request.line).frames ++ [stream.startFrame] <+:
      ((HandlerResult.finish stream .untilDone request lines).2.2 request.line).frames := by
  obtain ⟨houtcome, hlines, -, -⟩ := prepare_unstarted hfresh hhook .untilDone lines
  have hdone := (lines request.line).send_done stream.startFrame (haccepts _)
  have hsent := (lines request.line).frames_send .untilDone stream.startFrame
  simp only [HandlerResult.finish, hfresh]
  rcases hprepare : stream.prepare .untilDone request lines with ⟨outcome, after, lines'⟩
  simp only [hprepare] at houtcome hlines
  obtain rfl : outcome = .done () := houtcome.trans hdone
  have hframes : (lines' request.line).frames =
      (lines request.line).frames ++ [stream.startFrame] := by
    rw [hlines, Lines.set_self, hsent, if_pos hdone]
  rw [← hframes]
  exact (after.grow_writeEnd .untilDone lines' [] request.line).frames

/-- On a line that refuses nothing the start frame of a reply shows the stream as it was when it
started. -/
theorem startFrame_opening (hhook : request.hook = []) {calls : List (Patience × Call)}
    (hasked : ∀ entry ∈ calls, ∀ request', entry.2.request? = some request' → request' = request)
    (hfresh : stream.phase = .notStarted) {lines : Lines}
    (haccepts : ∀ n, ((lines request.line).reception n).refusal = none) :
    let before := stream.run lines calls
    (lines request.line).frames ++ [(stream.opening lines calls).startFrame] <+:
      ((HandlerResult.finish before.1 .untilDone request before.2).2.2 request.line).frames := by
  induction calls generalizing stream lines with
  | nil => exact startFrame_finish hhook hfresh haccepts
  | cons entry rest ih =>
    obtain ⟨patience, call⟩ := entry
    obtain ⟨hcall, hrest⟩ := List.forall_mem_cons.1 hasked
    have hstep := call_unstarted hfresh hhook hcall patience lines
    have hgrow := stream.grow_call patience lines call
    simp only [run, opening]
    rcases hafter : stream.call patience lines call with ⟨outcome, after, lines'⟩
    simp only [hafter] at hstep hgrow
    rcases hstep with ⟨hphase, hframes⟩ | ⟨hphase, hframes⟩
    · have haccepts' (n : Nat) : ((lines' request.line).reception n).refusal = none := by
        rw [(hgrow request.line).reception]
        exact haccepts n
      simp only [hphase]
      rw [← hframes]
      exact ih hrest hphase haccepts'
    · have hopening : (match after.phase with
          | .notStarted => after.opening lines' rest
          | _ => stream) = stream := by
        split
        next h => exact absurd h hphase
        next => rfl
      rw [hopening, ← hframes]
      exact ((after.grow_run lines' rest).trans (grow_finish _ _ _ request) request.line).frames

end Stream

end DocumentServer
