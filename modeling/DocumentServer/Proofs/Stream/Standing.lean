import DocumentServer.Proofs.Stream.Fields
import DocumentServer.Proofs.Stream.Sealing

/-! What the fields of a stream tell. After any calls, whatever the lines do with the frames and
whatever hooks try, the fields stand for what was sent: before the start nothing is there, a
prepared stream holds its writer and the request whose line took the start frame, and a closed one
holds neither but the length of the body that its line carries. A stream never goes back. -/
namespace DocumentServer

open DocumentServer.Frame (answer)

def Frame.bodySize (frames : List Frame) : Nat := (frames.flatMap Frame.data).length

theorem Frame.bodySize_append (frames frames' : List Frame) :
    bodySize (frames ++ frames') = bodySize frames + bodySize frames' := by
  rw [bodySize, List.flatMap_append, List.length_append]
  rfl

theorem Frame.isStart_of_mem_answer {frame : Frame} {status : Nat}
    {headers : List (Bytes × Bytes)} {chunks : List Bytes} {last : Option Bytes}
    (h : frame ∈ answer status headers chunks last) :
    frame = .start status headers ∨ frame.isStart = false := by
  simp only [answer, List.mem_cons, List.mem_append, List.mem_map] at h
  rcases h with rfl | ⟨_, _, rfl⟩ | ⟨_, _, rfl⟩
  · exact .inl rfl
  · exact .inr rfl
  · exact .inr rfl

/-- A call on a writer credits it with the bytes of the frames that it adds to the line. -/
theorem Writer.Idle.counts_call {writer : Writer} (h : writer.Idle) (patience : Patience)
    (line : Line) (call : Writer.Call) :
    let after := writer.call patience line call
    ∃ added, after.2.2.frames = line.frames ++ added ∧
      after.2.1.sent = writer.sent + Frame.bodySize added := by
  have kept (outcome : Outcome Unit) : ∃ added, line.frames = line.frames ++ added ∧
      writer.sent = writer.sent + Frame.bodySize added :=
    ⟨[], (List.append_nil _).symm, rfl⟩
  have sending (data : Bytes) (more : Bool) (ended : Bool) :
      let sent := line.send patience (.body data more)
      let after := if sent.1 = .done () then { writer.credited data.length with ended := ended }
        else writer
      ∃ added, sent.2.frames = line.frames ++ added ∧
        after.sent = writer.sent + Frame.bodySize added := by
    refine ⟨_, line.frames_send patience (.body data more), ?_⟩
    split
    next => simp [Frame.bodySize, Frame.data, Writer.credited]
    next => rfl
  cases call with
  | write data =>
    cases hended : writer.ended with
    | true => simpa [Writer.call, Writer.write, hended] using kept (.done ())
    | false =>
      have hcredited : writer.credited data.length =
          { writer.credited data.length with ended := false } := by
        simp [Writer.credited, ← hended]
      rw [Writer.call, h.write patience data line hended, hcredited]
      exact sending data true false
  | writeEnd data =>
    cases hended : writer.ended with
    | true => simpa [Writer.call, Writer.writeEnd, hended] using kept (.done ())
    | false =>
      rw [Writer.call, h.writeEnd patience data line hended]
      exact sending data false true
  | drain =>
    rw [Writer.call, h.drain]
    exact kept (.done ())
  | enableCompression => exact kept (.done ())
  | enableChunking => exact kept (.done ())

/-- A writer has ended once an ending succeeds. -/
theorem Writer.Idle.ended_writeEnd {writer : Writer} (h : writer.Idle) {patience : Patience}
    {data : Bytes} {line : Line} (hdone : (writer.writeEnd patience data line).1 = .done ()) :
    (writer.writeEnd patience data line).2.1.ended = true := by
  cases hended : writer.ended with
  | true => simp [Writer.writeEnd, hended]
  | false =>
    rw [h.writeEnd patience data line hended] at hdone ⊢
    dsimp only at hdone ⊢
    rw [if_pos hdone]

namespace Stream

/-! ### The request that took the start frame -/

/-- The request that a call prepares the stream for, if its line takes a frame. -/
def starts? (stream : Stream) (patience : Patience) (lines : Lines) (call : Call) :
    Option Request :=
  match call.request? with
  | none => none
  | some request =>
    if ((stream.call patience lines call).2.2 request.line).frames = (lines request.line).frames
    then none
    else some request

/-- The first request in a run whose line takes a frame when the stream is prepared for it. -/
def starter? (stream : Stream) (lines : Lines) : List (Patience × Call) → Option Request
  | [] => none
  | (patience, call) :: rest =>
    let (_, after, lines') := stream.call patience lines call
    (stream.starts? patience lines call).or (after.starter? lines' rest)

/-! ### What a phase holds -/

/-- What was sent since the lines carried `before`, if a stream of this phase started for `starter`.
-/
inductive Held (before : Nat → List Frame) (lines : Lines) : Option Request → Phase → Prop
  | notStarted : (∀ i, Carried before lines i []) → Held before lines none .notStarted
  | prepared {request : Request} {writer : Writer} {status : StatusCode}
      {headers : List (Bytes × Bytes)} {chunks : List Bytes} {last : Option Bytes} :
      writer.Idle → writer.ended = last.isSome →
      Carried before lines request.line (answer status.val headers chunks last) →
      writer.sent = Frame.bodySize (answer status.val headers chunks last) →
      Held before lines (some request) (.prepared request writer)
  | closed {request : Request} {length : Nat} {status : StatusCode}
      {headers : List (Bytes × Bytes)} {chunks : List Bytes} {data : Bytes} :
      Carried before lines request.line (answer status.val headers chunks (some data)) →
      length = Frame.bodySize (answer status.val headers chunks (some data)) →
      Held before lines (some request) (.closed length)

variable {before : Nat → List Frame} {stream : Stream} {lines : Lines} {starter : Option Request}
  (patience : Patience)

/-- A call on the writer of a prepared stream keeps the account of what was sent. -/
theorem Held.callWriter {request : Request} {writer : Writer}
    (h : Held before lines starter (.prepared request writer)) (call : Writer.Call) :
    let after := writer.call patience (lines request.line) call
    Held before (lines.set request.line after.2.2) starter (.prepared request after.2.1) := by
  cases h with
  | prepared hidle hended hcarried hsent =>
    obtain ⟨hidle', hended', hframes⟩ := hidle.noted_call patience call hcarried.frames hended
    obtain ⟨added, hadded, hcredit⟩ := hidle.counts_call patience (lines request.line) call
    refine .prepared hidle' hended' (hcarried.set hframes) ?_
    rw [hadded, hcarried.frames, List.append_assoc, List.append_cancel_left_eq] at hframes
    rw [hcredit, hsent, ← hframes, Frame.bodySize_append]

/-- A prepared stream closes with the bytes that its writer sent, once that has ended. -/
theorem Held.close {request : Request} {writer : Writer}
    (h : Held before lines starter (.prepared request writer)) (hended : writer.ended = true) :
    Held before lines starter (.closed writer.sent) := by
  cases h with
  | prepared _ hlast hcarried hsent =>
    obtain ⟨data, rfl⟩ := Option.isSome_iff_exists.1 (hlast.symm.trans hended)
    exact .closed hcarried hsent

theorem Held.start (hcarried : ∀ i, Carried before lines i []) (hphase : stream.phase = .notStarted)
    (request : Request) :
    let after := stream.start patience request lines
    Held before after.2.2
      (if (after.2.2 request.line).frames = (lines request.line).frames then none else some request)
      after.2.1.phase := by
  let ready := stream.readied request
  let frame := Frame.start ready.status.val ready.headers.wire
  have hsend := (lines request.line).frames_send patience frame
  rw [start_eq]
  by_cases hdone : ((lines request.line).send patience frame).1 = .done ()
  · rw [if_pos hdone] at hsend
    have hgrown : ((lines request.line).send patience frame).2.frames ≠
        (lines request.line).frames := by
      simp [hsend]
    rw [(hcarried request.line).frames, List.append_nil] at hsend
    have hset : Carried before (lines.set request.line ((lines request.line).send patience frame).2)
        request.line (answer ready.status.val ready.headers.wire [] none) :=
      (hcarried request.line).set hsend
    simp only [ready, frame] at hdone hset hgrown
    simp only [hdone, ↓reduceIte, Lines.set_self, hgrown]
    exact .prepared Writer.idle_fresh rfl hset rfl
  · rw [if_neg hdone, List.append_nil] at hsend
    simp only [ready, frame] at hdone hsend
    simp only [hdone, ↓reduceIte, Lines.set_self, hsend,
      show (stream.readied request).phase = .notStarted from hphase]
    refine .notStarted fun i => ?_
    intro j
    by_cases hj : j = request.line
    · subst hj
      simp only [Lines.set_self, hsend, hcarried i request.line]
    · rw [Lines.set_of_ne _ _ hj, hcarried i j]

theorem Held.prepare (h : Held before lines starter stream.phase) (request : Request) :
    let after := stream.prepare patience request lines
    Held before after.2.2 (starter.or (stream.starts? patience lines (.prepare request)))
      after.2.1.phase := by
  have hstarts : stream.starts? patience lines (.prepare request) =
      if ((stream.prepare patience request lines).2.2 request.line).frames =
        (lines request.line).frames then none else some request := rfl
  rw [hstarts]
  rw [Stream.prepare_eq]
  split
  next => simpa using h
  next => simpa using h
  next hphase =>
    have hkept := phase_runHook request.hook stream
    rcases hhook : runHook request.hook stream with ⟨result, ready⟩
    rw [hhook, hphase] at hkept
    rw [hphase] at h
    cases h with
    | notStarted hcarried =>
      cases result with
      | ok => exact Held.start patience hcarried hkept request
      | error error =>
        have hready : ready.phase = .notStarted := hkept
        simpa [hready] using Held.notStarted hcarried

/-- An end of the body that is sent closes the stream, and one that is not leaves it open. -/
theorem Held.writeEnd (h : Held before lines starter stream.phase) (data : Bytes) :
    let after := stream.writeEnd patience data lines
    Held before after.2.2 starter after.2.1.phase := by
  cases hphase : stream.phase with
  | notStarted => simpa [Stream.writeEnd, hphase] using hphase ▸ h
  | closed => simpa [Stream.writeEnd, hphase] using hphase ▸ h
  | prepared request writer =>
    rw [hphase] at h
    have hcall := h.callWriter patience (.writeEnd data)
    have hidle : writer.Idle := by
      cases h with
      | prepared hidle => exact hidle
    have hended := @Writer.Idle.ended_writeEnd writer hidle patience data (lines request.line)
    rw [Writer.call] at hcall
    simp only [Stream.writeEnd, hphase]
    rcases hend : writer.writeEnd patience data (lines request.line) with ⟨outcome, after, line⟩
    rw [hend] at hcall hended
    cases outcome with
    | done => exact hcall.close (hended rfl)
    | failed => exact hcall
    | cancelled => exact hcall

/-- Every call keeps the account, and the first one that starts the stream names its request. -/
theorem Held.call (h : Held before lines starter stream.phase) (call : Call) :
    let after := stream.call patience lines call
    Held before after.2.2 (starter.or (stream.starts? patience lines call)) after.2.1.phase := by
  have kept {after : Stream × Lines} (hafter : Held before after.2 starter after.1.phase) :
      Held before after.2 (starter.or none) after.1.phase := by
    rwa [Option.or_none]
  cases call with
  | prepare request => exact h.prepare patience request
  | writeEnd data => exact kept (h.writeEnd patience data)
  | write data =>
    refine kept (?_ : Held before (stream.write patience data lines).2.2 starter
      (stream.write patience data lines).2.1.phase)
    cases hphase : stream.phase with
    | notStarted => simpa [Stream.write, hphase] using hphase ▸ h
    | closed => simpa [Stream.write, hphase] using hphase ▸ h
    | prepared request writer =>
      have hcall := Held.callWriter patience (hphase ▸ h) (.write data)
      rw [Writer.call] at hcall
      simpa [Stream.write, hphase, withWriter] using hcall
  | drain =>
    refine kept (?_ : Held before (stream.drain patience lines).2.2 starter
      (stream.drain patience lines).2.1.phase)
    cases hphase : stream.phase with
    | notStarted => simpa [Stream.drain, hphase] using hphase ▸ h
    | closed => simpa [Stream.drain, hphase] using hphase ▸ h
    | prepared request writer =>
      have hcall := Held.callWriter patience (hphase ▸ h) .drain
      rw [Writer.call] at hcall
      simpa [Stream.drain, hphase, withWriter] using hcall
  | writer call =>
    refine kept (?_ : Held before (stream.callWriter patience call lines).2.2 starter
      (stream.callWriter patience call lines).2.1.phase)
    cases hphase : stream.phase with
    | notStarted => simpa [Stream.callWriter, hphase] using hphase ▸ h
    | closed => simpa [Stream.callWriter, hphase] using hphase ▸ h
    | prepared request writer =>
      have hcall := Held.callWriter patience (hphase ▸ h) call
      simpa [Stream.callWriter, hphase, withWriter] using hcall
  | edit edit =>
    simp only [Stream.call, starts?, Call.request?, Option.or_none]
    cases hedit : stream.edit edit with
    | error => exact h
    | ok after =>
      rw [← phase_edit hedit] at h
      exact h

theorem Held.run (h : Held before lines starter stream.phase) (calls : List (Patience × Call)) :
    let after := stream.run lines calls
    Held before after.2 (starter.or (stream.starter? lines calls)) after.1.phase := by
  induction calls generalizing stream lines starter with
  | nil => simpa [Stream.run, starter?] using h
  | cons entry rest ih =>
    obtain ⟨patience, call⟩ := entry
    have hrest := ih (h.call patience call)
    rw [Option.or_assoc] at hrest
    exact hrest

/-- A stream that was closed stays as it was closed. -/
theorem phase_call_closed {length : Nat} (h : stream.phase = .closed length) (lines : Lines)
    (call : Call) : (stream.call patience lines call).2.1.phase = .closed length := by
  cases call with
  | edit edit =>
    simp only [Stream.call]
    cases hedit : stream.edit edit with
    | error => exact h
    | ok after => exact (phase_edit hedit).trans h
  | _ => simp [Stream.call, Stream.prepare_eq, Stream.write, Stream.drain, Stream.writeEnd,
      Stream.callWriter, h]

namespace Fields

/-- The fields stand for what went to line `i`, of which `starter` took the start frame. -/
structure InStep (fields : Fields) (i : Nat) (sent : List Frame) (starter : Option Request) :
    Prop where
  notStarted_iff : fields.state = .notStarted ↔ ∀ frame ∈ sent, frame.isStart = false
  notStarted : fields.state = .notStarted →
    fields.writer = none ∧ fields.request = none ∧ fields.bodyLength = none
  prepared_iff : fields.state = .prepared ↔ fields.writer.isSome ∧ fields.request.isSome
  prepared_eq : fields.prepared = decide (fields.state = .prepared)
  prepared : fields.state = .prepared → fields.bodyLength = none ∧
    ∃ request writer, fields.request = some request ∧ fields.writer = some (i, writer) ∧
      starter = some request ∧ request.line = i ∧
      fields.display = "<StreamingResponse " ++ request.method ++ " " ++ request.path ++ ">"
  closed : fields.state = .closed → fields.writer = none ∧ fields.request = none ∧
    (∃ frame ∈ sent, frame.isFinal) ∧ fields.bodyLength = some (Frame.bodySize sent)
  status : 100 ≤ fields.status ∧ fields.status ≤ 599
  start : ∀ status headers, .start status headers ∈ sent → 100 ≤ status ∧ status ≤ 599

theorem status_ofStream (stream : Stream) : (ofStream stream).status = stream.status.val := by
  cases hphase : stream.phase <;> simp [ofStream, hphase, spread]

theorem start_of_answer {status : StatusCode} {headers : List (Bytes × Bytes)}
    {chunks : List Bytes} {last : Option Bytes} {code : Nat} {others : List (Bytes × Bytes)}
    (h : .start code others ∈ answer status.val headers chunks last) :
    100 ≤ code ∧ code ≤ 599 := by
  rcases Frame.isStart_of_mem_answer h with hstart | hbody
  · cases hstart
    exact status.inRange
  · cases hbody

theorem not_forall_isStart (status : Nat) (headers : List (Bytes × Bytes)) (chunks : List Bytes)
    (last : Option Bytes) :
    ¬ ∀ frame ∈ answer status headers chunks last, frame.isStart = false := by
  intro hnone
  have hstart := hnone (.start status headers) List.mem_cons_self
  cases hstart

theorem inRange_ofStream (stream : Stream) :
    100 ≤ (ofStream stream).status ∧ (ofStream stream).status ≤ 599 :=
  status_ofStream stream ▸ stream.status.inRange

theorem inStep_notStarted (h : stream.phase = .notStarted) (i : Nat) (starter : Option Request) :
    (ofStream stream).InStep i [] starter := by
  have hstatus := inRange_ofStream stream
  rw [ofStream_notStarted h] at hstatus ⊢
  exact {
    notStarted_iff := by simp [spread]
    notStarted := fun _ => ⟨rfl, rfl, rfl⟩
    prepared_iff := by simp [spread]
    prepared_eq := rfl
    prepared := by simp [spread]
    closed := by simp [spread]
    status := hstatus
    start := by simp }

theorem inStep_prepared {request : Request} {writer : Writer}
    (h : stream.phase = .prepared request writer) (status : StatusCode)
    (headers : List (Bytes × Bytes)) (chunks : List Bytes) (last : Option Bytes) :
    (ofStream stream).InStep request.line (answer status.val headers chunks last)
      (some request) := by
  have hstatus := inRange_ofStream stream
  rw [ofStream_prepared h] at hstatus ⊢
  exact {
    notStarted_iff := iff_of_false (by simp [spread]) (not_forall_isStart _ _ _ _)
    notStarted := by simp [spread]
    prepared_iff := ⟨fun _ => ⟨rfl, rfl⟩, fun _ => rfl⟩
    prepared_eq := rfl
    prepared := fun _ => ⟨rfl, request, writer, rfl, rfl, rfl, rfl, rfl⟩
    closed := by simp [spread]
    status := hstatus
    start := fun _ _ => start_of_answer }

theorem inStep_closed {length : Nat} (h : stream.phase = .closed length) (i : Nat)
    (starter : Option Request) {status : StatusCode} {headers : List (Bytes × Bytes)}
    {chunks : List Bytes} {data : Bytes}
    (hlength : length = Frame.bodySize (answer status.val headers chunks (some data))) :
    (ofStream stream).InStep i (answer status.val headers chunks (some data)) starter := by
  have hstatus := inRange_ofStream stream
  have hfinal : .body data false ∈ answer status.val headers chunks (some data) := by
    simp [answer]
  rw [ofStream_closed h] at hstatus ⊢
  exact {
    notStarted_iff := iff_of_false (by simp [spread]) (not_forall_isStart _ _ _ _)
    notStarted := by simp [spread]
    prepared_iff := by simp [spread]
    prepared_eq := rfl
    prepared := by simp [spread]
    closed := fun _ => ⟨rfl, rfl, ⟨_, hfinal, rfl⟩, congrArg some hlength⟩
    status := hstatus
    start := fun _ _ => start_of_answer }

/-- What was sent keeps the fields in step. -/
theorem inStep_of_held (h : Held before lines starter stream.phase) :
    ∃ i sent, Carried before lines i sent ∧ (ofStream stream).InStep i sent starter := by
  cases hphase : stream.phase with
  | notStarted =>
    rw [hphase] at h
    cases h with
    | notStarted hcarried => exact ⟨0, [], hcarried 0, inStep_notStarted hphase 0 none⟩
  | prepared request writer =>
    rw [hphase] at h
    cases h with
    | prepared hidle hended hcarried hsent =>
      exact ⟨request.line, _, hcarried, inStep_prepared hphase _ _ _ _⟩
  | closed length =>
    rw [hphase] at h
    cases h with
    | closed hcarried hlength => exact ⟨_, _, hcarried, inStep_closed hphase _ _ hlength⟩

theorem state_prepared {request : Request} {writer : Writer}
    (h : stream.phase = .prepared request writer) : (ofStream stream).state = .prepared := by
  rw [ofStream_prepared h]
  rfl

theorem state_closed {length : Nat} (h : stream.phase = .closed length) :
    (ofStream stream).state = .closed := by
  rw [ofStream_closed h]
  rfl

/-- No call takes a stream back. -/
theorem rank_call_le (h : Held before lines starter stream.phase) (call : Call) :
    (ofStream stream).state.rank ≤
      (ofStream (stream.call patience lines call).2.1).state.rank := by
  cases hphase : stream.phase with
  | notStarted =>
    rw [ofStream_notStarted hphase]
    exact Nat.zero_le _
  | closed length =>
    have hafter := phase_call_closed patience hphase lines call
    exact Nat.le_of_eq (by rw [state_closed hphase, state_closed hafter])
  | prepared request writer =>
    have hcall := h.call patience call
    rw [hphase] at h
    cases h with
    | prepared =>
      rw [state_prepared hphase]
      cases hafter : (stream.call patience lines call).2.1.phase with
      | notStarted =>
        -- The request that took the start frame is on record, so the stream has started.
        simp only [Option.some_or, hafter] at hcall
        cases hcall
      | prepared => exact Nat.le_of_eq (by rw [state_prepared hafter])
      | closed =>
        rw [state_closed hafter]
        decide

theorem rank_run_le (h : Held before lines starter stream.phase)
    (calls : List (Patience × Call)) :
    (ofStream stream).state.rank ≤ (ofStream (stream.run lines calls).1).state.rank := by
  induction calls generalizing stream lines starter with
  | nil => exact Nat.le_refl _
  | cons entry rest ih =>
    obtain ⟨patience, call⟩ := entry
    exact Nat.le_trans (rank_call_le patience h call) (ih (h.call patience call))

end Fields

/-! ### Every run -/

theorem phase_build {id code : Nat} {headers : Headers} (h : build id code headers = .ok stream) :
    stream.phase = .notStarted := by
  unfold build at h
  split at h
  · cases h
  · cases h
    rfl

/-- After any calls the fields of a stream, set one by one, stand for what was sent, and no later
calls take the stream back. -/
theorem run_in_step {id code : Nat} {headers : Headers}
    (hbuild : build id code headers = .ok stream) (lines : Lines)
    (calls : List (Patience × Call)) :
    let after := stream.run lines calls
    let fields := Fields.ofStream after.1
    (∃ fresh, Fields.build id code headers = .ok fresh ∧
      fresh.run lines calls = (fields, after.2)) ∧
    (∃ i sent, (∀ j, (after.2 j).frames = (lines j).frames ++ if j = i then sent else []) ∧
      fields.InStep i sent (stream.starter? lines calls)) ∧
    ∀ later, fields.state.rank ≤
      (Fields.ofStream (stream.run lines (calls ++ later)).1).state.rank := by
  have hfresh : Held (fun i => (lines i).frames) lines none stream.phase := by
    rw [phase_build hbuild]
    exact .notStarted (by intro i j; simp)
  have hrun := hfresh.run calls
  rw [Option.none_or] at hrun
  refine ⟨⟨Fields.ofStream stream, ?_, Fields.run_ofStream stream lines calls⟩,
    Fields.inStep_of_held hrun, fun later => ?_⟩
  · rw [Fields.build_ofStream, hbuild]
    rfl
  · rw [run_append]
    exact Fields.rank_run_le hrun later

/-- A hook sets the status before a start that is refused, another one tries to write, and a third
request starts the stream. A chunk is given up, the writer is ended past the stream, and then the
stream closes with the three bytes that its line took. -/
theorem run_in_step_past_refusal :
    let stream : Stream := ⟨0, ⟨200, by decide⟩, ∅, none, none, none, ∅, .notStarted⟩
    let request (line : Nat) (hook : List HookStep) : Request := ⟨"GET", "/", none, hook, line⟩
    let lines : Lines := fun i => .fresh fun n => ⟨n = 2, if i = 0 then some "gone" else none⟩
    let calls : List (Patience × Call) :=
      [(.untilDone, .prepare (request 0 [.edit (.status 503)])),
        (.untilDone, .prepare (request 1 [.write [7]])), (.untilDone, .prepare (request 1 [])),
        (.untilDone, .write [1, 2]), (.onePoll, .write [9]), (.untilDone, .writer (.writeEnd [3])),
        (.untilDone, .writeEnd [4])]
    let after := stream.run lines calls
    let fields := Fields.ofStream after.1
    build 0 200 ∅ = .ok stream ∧ fields.state = .closed ∧ fields.bodyLength = some 3 ∧
      fields.status = 503 ∧
      ∃ i sent, (∀ j, (after.2 j).frames = (lines j).frames ++ if j = i then sent else []) ∧
        fields.InStep i sent (some (request 1 [])) := by
  intro stream request lines calls after fields
  have hbuild : build 0 200 ∅ = .ok stream := rfl
  have hstarter : stream.starter? lines calls = some (request 1 []) := rfl
  have hstep := (run_in_step hbuild lines calls).2.1
  rw [hstarter] at hstep
  exact ⟨hbuild, rfl, rfl, rfl, hstep⟩

end Stream

end DocumentServer
