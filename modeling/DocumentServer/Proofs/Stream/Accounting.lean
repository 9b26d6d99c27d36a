import DocumentServer.Proofs.Stream.Standing

/-! The books of a writer. A call is taken apart into the stages it visits: the head of the loop
that sends the queue, each frame that is about to be offered, and the end. At every stage, whatever
the line does with the frames, the bytes that are counted as waiting are those in the queue, and the
bytes counted as sent and the mark of the end agree with what the line accepted. Between calls
nothing waits, so what a call sends is its own. -/
namespace DocumentServer.Writer

/-! ### Stages -/

/-- Where a call on a writer stands, with the final piece that is to follow the queue, if any. -/
inductive Stage where
  /-- At the head of the loop that sends the queue. -/
  | looping (last : Option Bytes) (writer : Writer) (line : Line)
  /-- About to offer a chunk that was taken out of the queue. -/
  | offering (chunk : Bytes) (last : Option Bytes) (writer : Writer) (line : Line)
  /-- About to offer the final piece. -/
  | ending (data : Bytes) (writer : Writer) (line : Line)
  | stopped (outcome : Outcome Unit) (writer : Writer) (line : Line)

namespace Stage

def writer : Stage → Writer
  | looping _ writer _ => writer
  | offering _ _ writer _ => writer
  | ending _ writer _ => writer
  | stopped _ writer _ => writer

def line : Stage → Line
  | looping _ _ line => line
  | offering _ _ _ line => line
  | ending _ _ line => line
  | stopped _ _ line => line

def ofCall (writer : Writer) (line : Line) : Call → Stage
  | .write data =>
    if writer.ended then stopped (.failed (.state .writerEnded)) writer line
    else looping none (writer.enqueued data) line
  | .drain => looping none writer line
  | .writeEnd data =>
    if writer.ended then stopped (.done ()) writer line else looping (some data) writer line
  | .enableCompression _ => stopped (.failed (.unsupported .compression)) writer line
  | .enableChunking => stopped (.failed (.unsupported .chunking)) writer line

/-- Where the loop goes when the queue is empty. -/
def afterLoop (last : Option Bytes) (writer : Writer) (line : Line) : Stage :=
  match last with
  | none => stopped (.done ()) writer line
  | some data => ending data writer line

/-- The next stage. A call that has stopped stays so. -/
def next (patience : Patience) : Stage → Stage
  | looping last writer line =>
    match writer.queue with
    | [] => afterLoop last writer line
    | chunk :: rest => offering chunk last (writer.taken chunk rest) line
  | offering chunk last writer line =>
    match line.send patience (.body chunk true) with
    | (.done _, line) => looping last (writer.credited chunk.length) line
    | (outcome, line) => stopped outcome writer line
  | ending data writer line =>
    match line.send patience (.body data false) with
    | (.done _, line) => stopped (.done ()) { writer.credited data.length with ended := true } line
    | (outcome, line) => stopped outcome writer line
  | stopped outcome writer line => stopped outcome writer line

def atEnd (ending : Outcome Unit × Writer × Line) : Stage := stopped ending.1 ending.2.1 ending.2.2

variable (patience : Patience) (data : Bytes) (last : Option Bytes) (writer : Writer) (line : Line)

theorem next_offering :
    let sending := line.send patience (.body data true)
    (offering data last writer line).next patience =
      if sending.1 = .done () then looping last (writer.credited data.length) sending.2
      else stopped sending.1 writer sending.2 := by
  simp only [next]
  rcases line.send patience (.body data true) with ⟨outcome, line⟩
  cases outcome <;> rfl

theorem next_ending :
    let sending := line.send patience (.body data false)
    (ending data writer line).next patience =
      if sending.1 = .done () then
        stopped (.done ()) { writer.credited data.length with ended := true } sending.2
      else stopped sending.1 writer sending.2 := by
  simp only [next]
  rcases line.send patience (.body data false) with ⟨outcome, line⟩
  cases outcome <;> rfl

end Stage

open Stage (looping offering ending stopped afterLoop atEnd)

/-- The stages that a call visits from a stage on. -/
inductive Visits (patience : Patience) (start : Stage) : Stage → Prop
  | start : Visits patience start start
  | next {stage : Stage} : Visits patience start stage →
      Visits patience start (stage.next patience)

variable {patience : Patience} {start stage : Stage}

theorem Visits.trans {middle : Stage} (h : Visits patience start middle)
    (h' : Visits patience middle stage) : Visits patience start stage := by
  induction h' with
  | start => exact h
  | next _ ih => exact .next ih

theorem Visits.of_next (h : Visits patience (start.next patience) stage) :
    Visits patience start stage := Visits.trans (.next .start) h

/-- Where the loop leads: to what follows the queue, or to the end of the call. -/
def afterDrain (last : Option Bytes) : Outcome Unit × Writer × Line → Stage
  | (.done _, writer, line) => afterLoop last writer line
  | (outcome, writer, line) => stopped outcome writer line

theorem afterDrain_none (ending : Outcome Unit × Writer × Line) :
    afterDrain none ending = atEnd ending := by
  obtain ⟨outcome, writer, line⟩ := ending
  cases outcome <;> rfl

variable (patience : Patience) (writer : Writer) (line : Line)

theorem visits_afterDrain (last : Option Bytes) :
    Visits patience (looping last writer line) (afterDrain last (writer.drain patience line)) := by
  unfold drain
  -- The induction is on the queue, which the loop hands on with the writer.
  induction hqueue : writer.queue generalizing writer line with
  | nil =>
    have hnext : (looping last writer line).next patience = afterLoop last writer line := by
      simp only [Stage.next, hqueue]
    refine .of_next ?_
    rw [hnext]
    exact .start
  | cons chunk rest ih =>
    have hnext : (looping last writer line).next patience =
        offering chunk last (writer.taken chunk rest) line := by
      simp only [Stage.next, hqueue]
    refine .of_next (.of_next ?_)
    rw [hnext, Stage.next, drainQueue]
    rcases line.send patience (.body chunk true) with ⟨outcome, line⟩
    cases outcome with
    | done => exact ih _ line rfl
    | failed => exact .start
    | cancelled => exact .start

theorem visits_drained :
    Visits patience (looping none writer line) (atEnd (writer.drain patience line)) :=
  afterDrain_none (writer.drain patience line) ▸ visits_afterDrain patience writer line none

theorem visits_writeEnd (data : Bytes) (hopen : writer.ended = false) :
    Visits patience (looping (some data) writer line)
      (atEnd (writer.writeEnd patience data line)) := by
  refine (visits_afterDrain patience writer line (some data)).trans ?_
  simp only [writeEnd, hopen, Bool.false_eq_true, ↓reduceIte]
  rcases writer.drain patience line with ⟨outcome, writer, line⟩
  cases outcome with
  | failed => exact .start
  | cancelled => exact .start
  | done =>
    refine .of_next ?_
    dsimp only [afterDrain, afterLoop, Stage.next]
    rcases line.send patience (.body data false) with ⟨outcome, line⟩
    cases outcome <;> exact .start

/-- A call visits its end, which is what it answers and leaves. -/
theorem visits_atEnd (call : Call) :
    Visits patience (.ofCall writer line call) (atEnd (writer.call patience line call)) := by
  cases call with
  | write data =>
    cases hended : writer.ended with
    | true =>
      simp only [Stage.ofCall, Writer.call, write, hended, ↓reduceIte]
      exact .start
    | false =>
      simp only [Stage.ofCall, Writer.call, write, hended, Bool.false_eq_true, ↓reduceIte]
      exact visits_drained patience _ line
  | drain => exact visits_drained patience writer line
  | writeEnd data =>
    cases hended : writer.ended with
    | true =>
      simp only [Stage.ofCall, Writer.call, writeEnd, hended, ↓reduceIte]
      exact .start
    | false =>
      simp only [Stage.ofCall, hended, Bool.false_eq_true, ↓reduceIte]
      exact visits_writeEnd patience writer line data hended
  | enableCompression => exact .start
  | enableChunking => exact .start

/-! ### Books -/

/-- The books of a writer agree with its queue and with what its line accepted since it carried
`before`: the bytes of the frames, and whether one of them ended the body. -/
structure Balanced (before : List Frame) (writer : Writer) (line : Line) : Prop where
  buffered : writer.buffered = writer.queue.flatten.length
  sent : ∃ added, line.frames = before ++ added ∧ (∀ frame ∈ added, frame.isStart = false) ∧
    writer.sent = Frame.bodySize added ∧ (writer.ended = true ↔ ∃ frame ∈ added, frame.isFinal)

variable {writer line} {before : List Frame}

theorem balanced_fresh (line : Line) : Balanced line.frames fresh line :=
  ⟨rfl, [], (List.append_nil _).symm, nofun, rfl, nofun, nofun⟩

/-- No chunk is longer than what is counted as waiting. -/
theorem Balanced.length_le (h : Balanced before writer line) :
    ∀ chunk ∈ writer.queue.head?, chunk.length ≤ writer.buffered := by
  intro chunk hchunk
  obtain ⟨rest, hqueue⟩ := List.head?_eq_some_iff.1 hchunk
  rw [h.buffered, hqueue, List.flatten_cons, List.length_append]
  exact Nat.le_add_right _ _

theorem Balanced.enqueued (h : Balanced before writer line) (data : Bytes) :
    Balanced before (writer.enqueued data) line where
  buffered := by simp [Writer.enqueued, h.buffered]
  sent := h.sent

theorem Balanced.taken (h : Balanced before writer line) {chunk : Bytes} {rest : List Bytes}
    (hqueue : writer.queue = chunk :: rest) : Balanced before (writer.taken chunk rest) line where
  buffered := by simp [Writer.taken, h.buffered, hqueue]
  sent := h.sent

/-- A frame that is not accepted changes nothing in the books. -/
theorem Balanced.refused (h : Balanced before writer line) {frame : Frame}
    (hrefused : (line.send patience frame).1 ≠ .done ()) :
    Balanced before writer (line.send patience frame).2 where
  buffered := h.buffered
  sent := by
    rw [line.frames_send, if_neg hrefused, List.append_nil]
    exact h.sent

/-- A frame that is accepted is credited, and ends the books if it is final. -/
theorem Balanced.accepted (h : Balanced before writer line) {data : Bytes} {more : Bool}
    (hdone : (line.send patience (.body data more)).1 = .done ()) :
    Balanced before { writer.credited data.length with ended := writer.ended || !more }
      (line.send patience (.body data more)).2 where
  buffered := h.buffered
  sent := by
    obtain ⟨added, hframes, hbodies, hsent, hended⟩ := h.sent
    refine ⟨added ++ [.body data more], ?_, ?_, ?_, ?_⟩
    · rw [line.frames_send, if_pos hdone, hframes, List.append_assoc]
    · rw [List.forall_mem_append, List.forall_mem_singleton]
      exact ⟨hbodies, rfl⟩
    · rw [Frame.bodySize_append, ← hsent]
      simp [Writer.credited, Frame.bodySize, Frame.data]
    · have hfinal : (Frame.body data more).isFinal = !more := by cases more <;> rfl
      simp [hended, hfinal, or_and_right, exists_or]

/-- The books at a stage. -/
def Stage.Balanced (before : List Frame) (stage : Stage) : Prop :=
  Writer.Balanced before stage.writer stage.line

theorem balanced_ofCall (h : Balanced before writer line) (call : Call) :
    (Stage.ofCall writer line call).Balanced before := by
  cases call with
  | write data =>
    dsimp only [Stage.ofCall]
    split
    · exact h
    · exact h.enqueued data
  | writeEnd data =>
    dsimp only [Stage.ofCall]
    split
    · exact h
    · exact h
  | drain => exact h
  | enableCompression => exact h
  | enableChunking => exact h

/-- One stage after the other keeps the books. -/
theorem Stage.Balanced.next (h : stage.Balanced before) (patience : Patience) :
    (stage.next patience).Balanced before := by
  cases stage with
  | looping last writer line =>
    dsimp only [Stage.next]
    split
    next => cases last <;> exact h
    next hqueue => exact Writer.Balanced.taken h hqueue
  | offering chunk last writer line =>
    rw [next_offering]
    split
    next hdone =>
      have haccepted := Writer.Balanced.accepted patience h hdone
      rw [Bool.not_true, Bool.or_false] at haccepted
      exact haccepted
    next hrefused => exact Writer.Balanced.refused patience h hrefused
  | ending data writer line =>
    rw [next_ending]
    split
    next hdone =>
      have haccepted := Writer.Balanced.accepted patience h hdone
      rw [Bool.not_false, Bool.or_true] at haccepted
      exact haccepted
    next hrefused => exact Writer.Balanced.refused patience h hrefused
  | stopped => exact h

theorem Visits.balanced (h : Visits patience start stage) (hstart : start.Balanced before) :
    stage.Balanced before := by
  induction h with
  | start => exact hstart
  | next _ ih => exact ih.next patience

/-! ### Runs -/

def callEach (writer : Writer) (line : Line) : List (Patience × Call) → Writer × Line
  | [] => (writer, line)
  | (patience, call) :: rest =>
    let (_, writer, line) := writer.call patience line call
    writer.callEach line rest

theorem Balanced.call (h : Balanced before writer line) (call : Call) :
    let ending := writer.call patience line call
    Balanced before ending.2.1 ending.2.2 :=
  (visits_atEnd patience writer line call).balanced patience (balanced_ofCall h call)

theorem Idle.callEach (h : writer.Idle) (hbooks : Balanced before writer line)
    (calls : List (Patience × Call)) :
    (writer.callEach line calls).1.Idle ∧
      Balanced before (writer.callEach line calls).1 (writer.callEach line calls).2 := by
  induction calls generalizing writer line with
  | nil => exact ⟨h, hbooks⟩
  | cons entry rest ih =>
    obtain ⟨patience, call⟩ := entry
    exact ih (h.call patience line call) (hbooks.call patience call)

/-- A call on an idle writer sends its own frame or nothing, and nothing unless it succeeds. -/
theorem Idle.sends_own (h : writer.Idle) (call : Call) :
    let ending := writer.call patience line call
    ∃ sent, ending.2.2.frames = line.frames ++ sent ∧ sent <+: call.frame?.toList ∧
      (sent ≠ [] → ending.1 = .done ()) := by
  intro ending
  obtain hkept | ⟨frame, after, hframe, -, hcall⟩ := h.call_cases patience line call
  · refine ⟨[], ?_, List.nil_prefix, fun h => absurd rfl h⟩
    rw [show ending.2 = (writer, line) from hkept, List.append_nil]
  · rw [show ending = _ from hcall, hframe]
    refine ⟨_, line.frames_send patience frame, ?_, ?_⟩
    · split
      · exact List.prefix_rfl
      · exact List.nil_prefix
    · split
      next hdone => exact fun _ => hdone
      next => exact fun h => absurd rfl h

/-- However a line receives the frames and whichever calls are given up, nothing waits in a writer
between its calls and its books balance. Draining it offers nothing, and any other call sends its
own frame or nothing, the latter unless it succeeds. On the way to its end a call keeps the books
balanced, so no chunk that it takes out of the queue is longer than what is counted as waiting. -/
theorem books_balance (line : Line) (calls : List (Patience × Call)) :
    let after := fresh.callEach line calls
    (after.1.Idle ∧ Balanced line.frames after.1 after.2) ∧
      ∀ patience, after.1.drain patience after.2 = (.done (), after.1, after.2) ∧
        ∀ call,
          let start := Stage.ofCall after.1 after.2 call
          let ending := after.1.call patience after.2 call
          (∃ sent, ending.2.2.frames = after.2.frames ++ sent ∧ sent <+: call.frame?.toList ∧
            (sent ≠ [] → ending.1 = .done ())) ∧
          Visits patience start (atEnd ending) ∧
          ∀ stage, Visits patience start stage →
            Balanced line.frames stage.writer stage.line ∧
              ∀ chunk ∈ stage.writer.queue.head?, chunk.length ≤ stage.writer.buffered := by
  intro after
  obtain ⟨hidle, hbooks⟩ := idle_fresh.callEach (balanced_fresh line) calls
  refine ⟨⟨hidle, hbooks⟩, fun patience => ⟨hidle.drain patience _, fun call => ?_⟩⟩
  refine ⟨hidle.sends_own patience call, visits_atEnd patience _ _ call, fun stage hstage => ?_⟩
  have hstage := hstage.balanced patience (balanced_ofCall hbooks call)
  exact ⟨hstage, hstage.length_le⟩

example :
    let line : Line := .fresh fun n => ⟨false, if n = 0 then some "gone" else none⟩
    let calls := [.write [97], .drain, .write [98, 99]].map fun call => (Patience.untilDone, call)
    let after := fresh.callEach line calls
    after.2.frames = [.body [98, 99] true] ∧ after.1 = ⟨[], 0, 2, false⟩ := by
  decide

end DocumentServer.Writer
