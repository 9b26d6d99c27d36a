import DocumentServer.Proofs.Transport.Frames
import DocumentServer.Stream.Writer

/-! Writers between calls. A writer takes a chunk out of its queue before it offers the chunk, so no
call leaves anything behind: every call finds an empty queue and sends at most one frame. From this
a writer's answer is told by the calls on it that succeed: the chunks are those of the successful
writes and the final piece is that of the first successful ending. -/
namespace DocumentServer.Writer

open DocumentServer.Frame (answer answer_append_more answer_append_last)

/-- Nothing waits to be sent. -/
structure Idle (writer : Writer) : Prop where
  queue : writer.queue = []
  buffered : writer.buffered = 0

theorem idle_fresh : Idle fresh := ⟨rfl, rfl⟩

theorem Idle.credited {writer : Writer} (h : writer.Idle) (count : Nat) :
    (writer.credited count).Idle := ⟨h.queue, h.buffered⟩

variable {writer : Writer} (patience : Patience) (data : Bytes) (line : Line)

theorem Idle.drain (h : writer.Idle) : writer.drain patience line = (.done (), writer, line) := by
  simp [Writer.drain, h.queue, drainQueue]

theorem Idle.taken_enqueued (h : writer.Idle) : (writer.enqueued data).taken data [] = writer := by
  cases writer
  simp [enqueued, taken, h.queue.symm]

/-- An open writer without a queue offers one frame, and forgets the chunk if it is not accepted. -/
theorem Idle.write (h : writer.Idle) (hopen : writer.ended = false) :
    let sending := line.send patience (.body data true)
    writer.write patience data line =
      (sending.1, if sending.1 = .done () then writer.credited data.length else writer,
        sending.2) := by
  have hqueue : (writer.enqueued data).queue = [data] := by simp [enqueued, h.queue]
  rw [Writer.write, hopen, Writer.drain, hqueue, drainQueue, h.taken_enqueued data]
  rcases line.send patience (.body data true) with ⟨outcome, line⟩
  cases outcome <;> rfl

theorem Idle.writeEnd (h : writer.Idle) (hopen : writer.ended = false) :
    let sending := line.send patience (.body data false)
    writer.writeEnd patience data line =
      (sending.1,
        if sending.1 = .done () then { writer.credited data.length with ended := true } else writer,
        sending.2) := by
  simp only [Writer.writeEnd, hopen, h.drain, Bool.false_eq_true, ↓reduceIte]
  rcases line.send patience (.body data false) with ⟨outcome, line⟩
  cases outcome <;> rfl

/-- The frame that a call offers unless the writer has ended. -/
def Call.frame? : Call → Option Frame
  | write data => some (.body data true)
  | writeEnd data => some (.body data false)
  | _ => none

/-- A call on an idle writer does nothing, or it offers one frame, which is its own. -/
theorem Idle.call_cases (h : writer.Idle) (call : Call) :
    (writer.call patience line call).2 = (writer, line) ∨
      ∃ frame after, call.frame? = some frame ∧ after.Idle ∧ writer.call patience line call =
        ((line.send patience frame).1, after, (line.send patience frame).2) := by
  cases call with
  | write data =>
    cases hended : writer.ended with
    | true => exact .inl (by simp [Writer.call, Writer.write, hended])
    | false =>
      refine .inr ⟨_, _, rfl, ?_, h.write patience data line hended⟩
      split
      · exact h.credited _
      · exact h
  | writeEnd data =>
    cases hended : writer.ended with
    | true => exact .inl (by simp [Writer.call, Writer.writeEnd, hended])
    | false =>
      refine .inr ⟨_, _, rfl, ?_, h.writeEnd patience data line hended⟩
      split
      · exact ⟨h.queue, h.buffered⟩
      · exact h
  | drain => exact .inl (by rw [Writer.call, h.drain])
  | enableCompression => exact .inl rfl
  | enableChunking => exact .inl rfl

/-- No call leaves anything in the queue. -/
theorem Idle.call (h : writer.Idle) (call : Call) :
    (writer.call patience line call).2.1.Idle := by
  obtain hkept | ⟨frame, after, -, hafter, hcall⟩ := h.call_cases patience line call
  · rwa [hkept]
  · rwa [hcall]

/-- A call that the writer forbids leaves the writer and its line as they were, since a line never
ends a call that way. -/
theorem Idle.call_of_forbidden (h : writer.Idle) {call : Call} {fault : StateFault}
    (hforbidden : (writer.call patience line call).1 = .failed (.state fault)) :
    (writer.call patience line call).2 = (writer, line) := by
  obtain hkept | ⟨frame, after, -, -, hcall⟩ := h.call_cases patience line call
  · exact hkept
  · rw [hcall] at hforbidden
    exact absurd hforbidden (line.send_ne_state patience frame fault)

theorem Idle.writeEnd_ne_state (h : writer.Idle) (fault : StateFault) :
    (writer.writeEnd patience data line).1 ≠ .failed (.state fault) := by
  cases hended : writer.ended with
  | true => simp [Writer.writeEnd, hended]
  | false =>
    rw [h.writeEnd patience data line hended]
    exact line.send_ne_state patience _ fault

namespace Call

def chunk? : Call → Option Bytes
  | write data => some data
  | _ => none

def last? : Call → Option Bytes
  | writeEnd data => some data
  | _ => none

end Call

section Answer

variable {line : Line} {before : List Frame} {status : Nat} {headers : List (Bytes × Bytes)}
  {chunks : List Bytes} {last : Option Bytes}

/-- A call that succeeds adds its data to what was written, and any other call adds nothing. -/
def Noted (call : Call) (before : List Frame) (status : Nat) (headers : List (Bytes × Bytes))
    (chunks : List Bytes) (last : Option Bytes) (after : Outcome Unit × Writer × Line) : Prop :=
  let last := last.or (if after.1 = .done () then call.last? else none)
  after.2.1.Idle ∧ after.2.1.ended = last.isSome ∧
    after.2.2.frames = before ++ answer status headers
      (chunks ++ if after.1 = .done () then call.chunk?.toList else []) last

theorem Idle.noted_write (h : writer.Idle)
    (hframes : line.frames = before ++ answer status headers chunks last)
    (hended : writer.ended = last.isSome) :
    Noted (.write data) before status headers chunks last (writer.write patience data line) := by
  cases last with
  | some final =>
    rw [Writer.write, hended]
    simp [Noted, h, hframes, hended]
  | none =>
    rw [h.write patience data line hended]
    have hsend := line.frames_send patience (.body data true)
    by_cases hdone : (line.send patience (.body data true)).1 = .done ()
    · rw [if_pos hdone, hframes, List.append_assoc, answer_append_more] at hsend
      have hcredited : (writer.credited data.length).ended = false := hended
      simp [Noted, hdone, hsend, hcredited, h.credited, Call.chunk?, Call.last?]
    · rw [if_neg hdone, hframes, List.append_nil] at hsend
      simp [Noted, hdone, hsend, hended, h]

theorem Idle.noted_writeEnd (h : writer.Idle)
    (hframes : line.frames = before ++ answer status headers chunks last)
    (hended : writer.ended = last.isSome) :
    Noted (.writeEnd data) before status headers chunks last
      (writer.writeEnd patience data line) := by
  cases last with
  | some final =>
    rw [Writer.writeEnd, hended]
    simp [Noted, h, hframes, hended, Call.chunk?]
  | none =>
    rw [h.writeEnd patience data line hended]
    have hsend := line.frames_send patience (.body data false)
    by_cases hdone : (line.send patience (.body data false)).1 = .done ()
    · rw [if_pos hdone, hframes, List.append_assoc, answer_append_last] at hsend
      have hidle : Idle { writer.credited data.length with ended := true } := ⟨h.queue, h.buffered⟩
      simp [Noted, hdone, hsend, hidle, Call.chunk?, Call.last?]
    · rw [if_neg hdone, hframes, List.append_nil] at hsend
      simp [Noted, hdone, hsend, hended, h]

/-- What a call leaves of a writer and its line. -/
theorem Idle.noted_call (h : writer.Idle) (call : Call)
    (hframes : line.frames = before ++ answer status headers chunks last)
    (hended : writer.ended = last.isSome) :
    Noted call before status headers chunks last (writer.call patience line call) := by
  have kept (call : Call) (outcome : Outcome Unit) (hchunk : call.chunk? = none)
      (hlast : call.last? = none) :
      Noted call before status headers chunks last (outcome, writer, line) := by
    simp [Noted, hchunk, hlast, h, hframes, hended]
  cases call with
  | write data => exact h.noted_write patience data hframes hended
  | writeEnd data => exact h.noted_writeEnd patience data hframes hended
  | drain =>
    rw [Writer.call, h.drain]
    exact kept _ _ rfl rfl
  | enableCompression => exact kept _ _ rfl rfl
  | enableChunking => exact kept _ _ rfl rfl

end Answer

end DocumentServer.Writer
