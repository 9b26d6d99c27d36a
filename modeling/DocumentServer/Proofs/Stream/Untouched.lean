import DocumentServer.Proofs.Stream.Recording

/-! Calls that leave no trace. What calls make of a stream always has an idle writer, if any,
whatever the lines do and whatever hooks try, calls to prepare the stream included. So a call that
the state forbids, and one that finds nothing to do, leaves the stream, its writer and the lines as
they were, and no hook runs. -/
namespace DocumentServer.Stream

/-! ### Reached streams -/

/-- The streams that calls lead to. A hook may do to a stream what calls do, and so may prepare it
for another request; the lines may be as they like at every call. -/
inductive Reached : Stream → Prop
  | fresh {stream : Stream} : stream.phase = .notStarted → Reached stream
  | call {stream : Stream} (hooks : Request → Hook) (patience : Patience) (lines : Lines)
      (call : Call) :
    Reached stream →
      (∀ request, call.request? = some request → Reached (hooks request stream lines).2.1) →
      Reached (stream.callWith hooks patience lines call).2.1

variable {stream : Stream}

/-- The steps of a hook are calls. -/
theorem Reached.runHook (h : Reached stream) (steps : List HookStep) :
    Reached (runHook steps stream).2 := by
  induction steps generalizing stream with
  | nil => exact h
  | cons step rest ih =>
    cases step with
    | fail => exact h
    | write => exact h
    | writeEnd => exact h
    | edit edit =>
      have hedit := h.call (fun _ stream lines => (.done (), stream, lines)) .untilDone
        (fun _ => .recorder) (.edit edit) nofun
      rw [callWith_of_request? _ _ _ rfl] at hedit
      simp only [Stream.call] at hedit
      simp only [Stream.runHook]
      cases hafter : stream.edit edit with
      | ok after =>
        rw [hafter] at hedit
        exact ih hedit
      | error => exact h

theorem Reached.run (h : Reached stream) (lines : Lines) (calls : List (Patience × Call)) :
    Reached (stream.run lines calls).1 := by
  induction calls generalizing stream lines with
  | nil => exact h
  | cons entry rest ih =>
    obtain ⟨patience, call⟩ := entry
    have hcall := h.call Hook.own patience lines call
      fun request _ => by
        have hhook := h.runHook request.hook
        unfold Hook.own
        rcases hrun : Stream.runHook request.hook stream with ⟨result, hooked⟩
        rw [hrun] at hhook
        cases result <;> exact hhook
    rw [callWith_own] at hcall
    exact ih hcall _

/-! ### Idle writers -/

/-- The writer of a stream is idle, if there is one. -/
def Resting (stream : Stream) : Prop :=
  ∀ request writer, stream.phase = .prepared request writer → writer.Idle

theorem resting_of_ne (h : ∀ request writer, stream.phase ≠ .prepared request writer) :
    stream.Resting := fun request writer hphase => absurd hphase (h request writer)

theorem resting_withWriter (request : Request) {writer : Writer} (h : writer.Idle) :
    (stream.withWriter request writer).Resting := by
  intro _ _ hphase
  cases hphase
  exact h

theorem Resting.of_phase (h : stream.Resting) {after : Stream}
    (hphase : after.phase = stream.phase) : after.Resting :=
  fun request writer hafter => h request writer (hphase ▸ hafter)

theorem Resting.start (h : stream.Resting) (patience : Patience) (request : Request)
    (lines : Lines) : (stream.start patience request lines).2.1.Resting := by
  have hready : (stream.readied request).Resting := h.of_phase rfl
  rw [start_eq]
  dsimp only
  split
  · exact resting_withWriter request Writer.idle_fresh
  · exact hready

theorem Resting.callWriter (h : stream.Resting) (patience : Patience) (lines : Lines)
    (call : Writer.Call) : (stream.callWriter patience call lines).2.1.Resting := by
  unfold Stream.callWriter
  split
  next request writer hphase => exact resting_withWriter request ((h _ _ hphase).call patience _ _)
  next => exact h

theorem Resting.writeEnd (h : stream.Resting) (patience : Patience) (lines : Lines)
    (data : Bytes) : (stream.writeEnd patience data lines).2.1.Resting := by
  unfold Stream.writeEnd
  split
  next => exact h
  next => exact h
  next request writer hphase =>
    have hidle := (h _ _ hphase).call patience (lines request.line) (.writeEnd data)
    rw [Writer.call] at hidle
    rcases hend : writer.writeEnd patience data (lines request.line) with ⟨outcome, after, line⟩
    rw [hend] at hidle
    cases outcome with
    | done => exact resting_of_ne fun _ _ hphase => by cases hphase
    | failed => exact resting_withWriter request hidle
    | cancelled => exact resting_withWriter request hidle

theorem Resting.call (h : stream.Resting) (patience : Patience) (lines : Lines) {call : Call}
    (hcall : call.request? = none) : (stream.call patience lines call).2.1.Resting := by
  cases call with
  | prepare => cases hcall
  | write data =>
    simp only [Stream.call, Stream.write]
    split
    · exact h
    · exact h
    next request writer hphase =>
      exact resting_withWriter request ((h _ _ hphase).call patience _ (.write data))
  | drain =>
    simp only [Stream.call, Stream.drain]
    split
    · exact h
    · exact h
    next request writer hphase =>
      exact resting_withWriter request ((h _ _ hphase).call patience _ .drain)
  | writeEnd data => exact h.writeEnd patience lines data
  | writer call => exact h.callWriter patience lines call
  | edit edit =>
    simp only [Stream.call]
    split
    next after hedit => exact h.of_phase (phase_edit hedit)
    next => exact h

theorem Resting.prepareWith (h : stream.Resting) {hook : Hook} {lines : Lines}
    (hhook : (hook stream lines).2.1.Resting) (patience : Patience) (request : Request) :
    (stream.prepareWith hook patience request lines).2.1.Resting := by
  unfold Stream.prepareWith
  split
  · exact h
  · exact h
  · rcases hrun : hook stream lines with ⟨outcome, hooked, lines'⟩
    rw [hrun] at hhook
    cases outcome with
    -- The hook may have prepared the stream itself: the start puts a fresh writer in place of that.
    | done => exact hhook.start patience request lines'
    | failed => exact hhook
    | cancelled => exact hhook

theorem Reached.resting (h : Reached stream) : stream.Resting := by
  induction h with
  | fresh hphase => exact resting_of_ne (by rw [hphase]; nofun)
  | call hooks patience lines call _ _ ih ihhooks =>
    cases hcall : call.request? with
    | none =>
      rw [callWith_of_request? _ _ _ hcall]
      exact ih.call patience lines hcall
    | some request =>
      obtain rfl : call = .prepare request := by
        cases call <;> cases hcall
        rfl
      exact ih.prepareWith (ihhooks request rfl) patience request

/-! ### Calls without effect -/

variable {patience : Patience} {lines : Lines} {request : Request} {writer : Writer}

theorem withWriter_eq_self (hphase : stream.phase = .prepared request writer) :
    stream.withWriter request writer = stream := by
  rw [withWriter, ← hphase]

/-- What leaves a writer and its line alone leaves the stream and the lines alone. -/
theorem writer_untouched {call : Writer.Call}
    (hkept : ∀ request writer, stream.phase = .prepared request writer →
      (writer.call patience (lines request.line) call).2 = (writer, lines request.line)) :
    (stream.call patience lines (.writer call)).2 = (stream, lines) := by
  simp only [Stream.call, callWriter]
  split
  next request writer hphase =>
    simp only [hkept request writer hphase, Lines.set_eq_self, withWriter_eq_self hphase]
  next => rfl

/-- On a prepared stream a write and a drain are those of its writer. -/
theorem write_eq_writer (hphase : stream.phase = .prepared request writer) (data : Bytes) :
    stream.call patience lines (.write data) =
      stream.call patience lines (.writer (.write data)) := by
  simp only [Stream.call, Stream.write, callWriter, hphase]
  rfl

theorem drain_eq_writer (hphase : stream.phase = .prepared request writer) :
    stream.call patience lines .drain = stream.call patience lines (.writer .drain) := by
  simp only [Stream.call, Stream.drain, callWriter, hphase]
  rfl

theorem outcome_writer (hphase : stream.phase = .prepared request writer) (call : Writer.Call) :
    (stream.call patience lines (.writer call)).1 =
      (writer.call patience (lines request.line) call).1 := by
  simp only [Stream.call, callWriter, hphase]
  rfl

theorem outcome_writeEnd (hphase : stream.phase = .prepared request writer) (data : Bytes) :
    (stream.call patience lines (.writeEnd data)).1 =
      (writer.writeEnd patience data (lines request.line)).1 := by
  simp only [Stream.call, Stream.writeEnd, hphase]
  rcases writer.writeEnd patience data (lines request.line) with ⟨outcome, after, line⟩
  cases outcome <;> rfl

/-- A call on the writer that the writer forbids leaves no trace. -/
theorem Resting.writer_of_forbidden (h : stream.Resting) {call : Writer.Call} {fault : StateFault}
    (hforbidden : (stream.call patience lines (.writer call)).1 = .failed (.state fault)) :
    (stream.call patience lines (.writer call)).2 = (stream, lines) :=
  writer_untouched fun _ _ hphase =>
    (h _ _ hphase).call_of_forbidden patience _ (outcome_writer hphase call ▸ hforbidden)

/-- A call that the state forbids leaves no trace. -/
theorem Resting.call_of_forbidden (h : stream.Resting) {call : Call} {fault : StateFault}
    (hcall : call.request? = none)
    (hforbidden : (stream.call patience lines call).1 = .failed (.state fault)) :
    (stream.call patience lines call).2 = (stream, lines) := by
  cases call with
  | prepare => cases hcall
  | write data =>
    cases hphase : stream.phase with
    | prepared =>
      rw [write_eq_writer hphase] at hforbidden ⊢
      exact h.writer_of_forbidden hforbidden
    | notStarted => simp only [Stream.call, Stream.write, hphase]
    | closed => simp only [Stream.call, Stream.write, hphase]
  | drain =>
    cases hphase : stream.phase with
    | prepared =>
      rw [drain_eq_writer hphase] at hforbidden ⊢
      exact h.writer_of_forbidden hforbidden
    | notStarted => simp only [Stream.call, Stream.drain, hphase]
    | closed => simp only [Stream.call, Stream.drain, hphase]
  | writeEnd data =>
    cases hphase : stream.phase with
    | prepared =>
      rw [outcome_writeEnd hphase] at hforbidden
      exact absurd hforbidden ((h _ _ hphase).writeEnd_ne_state patience data _ fault)
    | notStarted => simp only [Stream.call, Stream.writeEnd, hphase]
    | closed => simp only [Stream.call, Stream.writeEnd, hphase]
  | writer call => exact h.writer_of_forbidden hforbidden
  | edit edit =>
    simp only [Stream.call] at hforbidden ⊢
    split at hforbidden
    · cases hforbidden
    · rfl

/-- Nothing waits in a writer, so to drain it leaves no trace. -/
theorem Resting.drain (h : stream.Resting) (patience : Patience) (lines : Lines) :
    (stream.call patience lines (.writer .drain)).2 = (stream, lines) ∧
      (stream.call patience lines .drain).2 = (stream, lines) := by
  have hwriter : (stream.call patience lines (.writer .drain)).2 = (stream, lines) :=
    writer_untouched fun _ _ hphase => by rw [Writer.call, (h _ _ hphase).drain]
  refine ⟨hwriter, ?_⟩
  cases hphase : stream.phase with
  | prepared => rw [drain_eq_writer hphase, hwriter]
  | notStarted => simp [Stream.call, Stream.drain, hphase]
  | closed => simp [Stream.call, Stream.drain, hphase]

/-- A writer that has ended answers every further ending without sending. -/
theorem writer_writeEnd_of_ended (patience : Patience) (lines : Lines)
    (hphase : stream.phase = .prepared request writer) (hended : writer.ended = true)
    (data : Bytes) :
    stream.call patience lines (.writer (.writeEnd data)) = (.done (), stream, lines) := by
  have hcall : writer.call patience (lines request.line) (.writeEnd data) =
      (.done (), writer, lines request.line) := by simp [Writer.call, Writer.writeEnd, hended]
  refine Prod.ext (by rw [outcome_writer hphase, hcall]) (writer_untouched ?_)
  intro _ _ hother
  cases hphase.symm.trans hother
  rw [hcall]

/-- A stream starts once. -/
theorem prepareWith_of_started (hstarted : stream.phase ≠ .notStarted) (hook : Hook)
    (patience : Patience) (request : Request) (lines : Lines) :
    stream.prepareWith hook patience request lines = (.done (), stream, lines) := by
  unfold prepareWith
  split
  · rfl
  · rfl
  next hphase => exact absurd hphase hstarted

/-- A change that is refused leaves no trace. -/
theorem edit_untouched (patience : Patience) (lines : Lines) {edit : StreamEdit}
    {error : ResponseError}
    (hrefused : (stream.call patience lines (.edit edit)).1 = .failed error) :
    (stream.call patience lines (.edit edit)).2 = (stream, lines) := by
  simp only [Stream.call] at hrefused ⊢
  split at hrefused
  · cases hrefused
  · rfl

/-- What the state forbids of a stream without a writer. -/
theorem forbidden_of_phase
    (hphase : stream.phase = .notStarted ∨ ∃ length, stream.phase = .closed length) :
    (∃ fault, (stream.call patience lines .drain).1 = .failed (.state fault)) ∧
      ∀ data, ∃ fault, (stream.call patience lines (.write data)).1 = .failed (.state fault) := by
  obtain hphase | ⟨length, hphase⟩ := hphase
  · simp [Stream.call, Stream.drain, Stream.write, hphase]
  · simp [Stream.call, Stream.drain, Stream.write, hphase]

/-- Only the start can be missing for an end. -/
theorem Resting.writeEnd_forbidden_iff (h : stream.Resting) (data : Bytes) :
    (∃ fault, (stream.call patience lines (.writeEnd data)).1 = .failed (.state fault)) ↔
      stream.phase = .notStarted := by
  cases hphase : stream.phase with
  | notStarted => simp [Stream.call, Stream.writeEnd, hphase]
  | closed => simp [Stream.call, Stream.writeEnd, hphase]
  | prepared =>
    simp [outcome_writeEnd hphase, (h _ _ hphase).writeEnd_ne_state patience data]

/-- The calls of a stream of any origin that leave it, its writer and the lines as they were, with
no hook run: those that the state forbids, changes that are refused, what writers do not offer, and
draining; for a stream that was prepared, preparing it again, which gives its writer, and ending the
writer again; for a closed stream, preparing it, which gives nothing, and ending it. And writing and
draining are forbidden before the start and after the end, and ending only before the start. -/
theorem forbidden_untouched (h : Reached stream) (hooks : Request → Hook) (patience : Patience)
    (lines : Lines) :
    let outcome (call : Call) := (stream.callWith hooks patience lines call).1
    let forbidden (call : Call) := ∃ fault, outcome call = .failed (.state fault)
    let untouched (call : Call) := (stream.callWith hooks patience lines call).2 = (stream, lines)
    (∀ call, call.request? = none → forbidden call → untouched call) ∧
      (∀ edit error, outcome (.edit edit) = .failed error → untouched (.edit edit)) ∧
      (∀ encoding, untouched (.writer (.enableCompression encoding))) ∧
      untouched (.writer .enableChunking) ∧ untouched (.writer .drain) ∧ untouched .drain ∧
      (∀ asked writer, stream.phase = .prepared asked writer →
        (∀ request, outcome (.prepare request) = .done () ∧ untouched (.prepare request) ∧
          stream.writer? = some writer) ∧
        (writer.ended = true → ∀ data, outcome (.writer (.writeEnd data)) = .done () ∧
          untouched (.writer (.writeEnd data)))) ∧
      (∀ length, stream.phase = .closed length →
        (∀ request, outcome (.prepare request) = .done () ∧ untouched (.prepare request) ∧
          stream.writer? = none) ∧
        ∀ data, outcome (.writeEnd data) = .done () ∧ untouched (.writeEnd data)) ∧
      ((stream.phase = .notStarted ∨ ∃ length, stream.phase = .closed length) →
        forbidden .drain ∧ ∀ data, forbidden (.write data)) ∧
      ∀ data, forbidden (.writeEnd data) ↔ stream.phase = .notStarted := by
  intro outcome forbidden untouched
  have hresting := h.resting
  refine ⟨?_, ?_, ?_, ?_, ?_, ?_, ?_, ?_, ?_, ?_⟩
  · rintro call hcall ⟨fault, hforbidden⟩
    rw [show outcome call = (stream.call patience lines call).1 from
      congrArg Prod.fst (callWith_of_request? stream patience lines hcall hooks)] at hforbidden
    rw [show untouched call = ((stream.call patience lines call).2 = (stream, lines)) from
      congrArg (Prod.snd · = _) (callWith_of_request? stream patience lines hcall hooks)]
    exact hresting.call_of_forbidden hcall hforbidden
  · exact fun edit error => edit_untouched patience lines
  · exact fun encoding => writer_untouched fun _ _ _ => rfl
  · exact writer_untouched fun _ _ _ => rfl
  · exact (hresting.drain patience lines).1
  · exact (hresting.drain patience lines).2
  · intro asked writer hphase
    refine ⟨fun request => ?_, fun hended data => ?_⟩
    · have hprepare := prepareWith_of_started (by rw [hphase]; nofun) (hooks request) patience
        request lines
      exact ⟨congrArg Prod.fst hprepare, congrArg Prod.snd hprepare, by rw [writer?, hphase]⟩
    · have hend := writer_writeEnd_of_ended patience lines hphase hended data
      exact ⟨congrArg Prod.fst hend, congrArg Prod.snd hend⟩
  · intro length hphase
    refine ⟨fun request => ?_, fun data => ?_⟩
    · have hprepare := prepareWith_of_started (by rw [hphase]; nofun) (hooks request) patience
        request lines
      exact ⟨congrArg Prod.fst hprepare, congrArg Prod.snd hprepare, by rw [writer?, hphase]⟩
    · simp [outcome, untouched, callWith, Stream.call, Stream.writeEnd, hphase]
  · exact forbidden_of_phase
  · exact hresting.writeEnd_forbidden_iff

/-- A stream whose first start was refused, whose chunk was given up and whose writer was ended
behind its back still counts as prepared. A hook that marks the stream and resets every line has no
part in what comes then. -/
theorem forbidden_untouched_past_refusal :
    let fresh : Stream := ⟨0, Status.ok.statusCode, ∅, none, none, none, ∅, .notStarted⟩
    let request (i : Nat) : Request := ⟨"GET", "/", none, [], i⟩
    let reception (i n : Nat) : Reception :=
      ⟨i = 1 ∧ n = 1, if i = 0 then some "gone" else none⟩
    let after := fresh.run (fun i => .fresh (reception i)) [
      (.untilDone, .prepare (request 0)), (.untilDone, .prepare (request 1)),
      (.onePoll, .write [1]), (.untilDone, .writer (.writeEnd [2]))]
    let hook : Hook := fun stream _ =>
      (.done (), { stream with keepAlive := some false }, fun _ => .recorder)
    let call := after.1.callWith (fun _ => hook) .untilDone after.2
    after.1.Reached ∧ after.1.phaseName = "Prepared" ∧
      (after.2 1).frames.tail = [.body [2] false] ∧
      (call (.prepare (request 0))).1 = .done () ∧
      (call (.prepare (request 0))).2 = (after.1, after.2) ∧
      (call (.write [3])).1 = .failed (.state .writerEnded) ∧
      (call (.write [3])).2 = (after.1, after.2) ∧
      (call (.writer (.writeEnd [4]))).1 = .done () ∧
      (call (.writer (.writeEnd [4]))).2 = (after.1, after.2) := by
  intro fresh request reception after hook call
  have hreached : after.1.Reached := (Reached.fresh rfl).run _ _
  obtain ⟨hforbidden, -, -, -, -, -, hprepared, -⟩ :=
    forbidden_untouched hreached (fun _ => hook) .untilDone after.2
  obtain ⟨hprepare, hend⟩ := hprepared (request 1) ⟨[], 0, 1, true⟩ rfl
  have hwrite : (call (.write [3])).1 = .failed (.state .writerEnded) := by decide
  exact ⟨hreached, rfl, by decide, (hprepare (request 0)).1, (hprepare (request 0)).2.1, hwrite,
    hforbidden _ rfl ⟨_, hwrite⟩, (hend rfl [4]).1, (hend rfl [4]).2⟩

end DocumentServer.Stream
