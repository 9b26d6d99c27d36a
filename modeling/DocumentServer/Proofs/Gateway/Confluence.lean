import DocumentServer.Gateway.Relay
import DocumentServer.Proofs.Gateway.Allowed

/-! Handler and client over a channel that holds only so many frames. Whatever the capacity and in
whatever order the two take their turns, the client sees one answer, which `Seen` reads off the
frames alone. Until it has that answer one of the two can always take a turn, and every turn that
can be taken brings the end nearer, so the two never wait for each other. -/
namespace DocumentServer

namespace Answer

abbrev shown (code : Nat) : Nat := if 100 ≤ code ∧ code ≤ 999 then code else 500

/-- The answer that a client sees of frames. Behind the start frame come the pieces of the body; the
frames behind the one that ends it may be any. -/
inductive Seen : List Frame → Answer → Prop
  | nothing : Seen [] ⟨500, [], [], none⟩
  | bodyFirst (data : Bytes) (more : Bool) (rest : List Frame) :
      Seen (.body data more :: rest) ⟨500, [], [], none⟩
  | ended (code : Nat) (headers : List (Bytes × Bytes)) (chunks : List Bytes) (last : Bytes)
      (rest : List Frame) :
      Seen (.start code headers :: (chunks.map (.body · true) ++ .body last false :: rest))
        ⟨shown code, visible headers, (chunks ++ [last]).filter (· ≠ []), none⟩
  | startedTwice (code : Nat) (headers : List (Bytes × Bytes)) (chunks : List Bytes) (code' : Nat)
      (headers' : List (Bytes × Bytes)) (rest : List Frame) :
      Seen (.start code headers :: (chunks.map (.body · true) ++ .start code' headers' :: rest))
        ⟨shown code, visible headers, chunks.filter (· ≠ []), some .startedTwice⟩
  | truncated (code : Nat) (headers : List (Bytes × Bytes)) (chunks : List Bytes) :
      Seen (.start code headers :: chunks.map (.body · true))
        ⟨shown code, visible headers, chunks.filter (· ≠ []), some .truncated⟩

theorem pieces_chunks (chunks : List Bytes) (rest : List Frame) :
    pieces (chunks.map (.body · true) ++ rest) =
      (chunks.filter (· ≠ []) ++ (pieces rest).1, (pieces rest).2) := by
  induction chunks with
  | nil => rfl
  | cons data chunks ih =>
    rw [List.map_cons, List.cons_append, pieces, ih]
    cases data <;> simp [addPiece]

theorem Seen.eq_ofFrames {frames : List Frame} {answer : Answer} (h : Seen frames answer) :
    answer = ofFrames frames := by
  cases h with
  | nothing => rfl
  | bodyFirst => rfl
  | ended code headers chunks last rest =>
    rw [ofFrames, pieces_chunks, pieces]
    cases last <;> simp [addPiece, statusFor, brokenStatus, filterMap_header?]
  | startedTwice code headers chunks code' headers' rest =>
    rw [ofFrames, pieces_chunks, pieces]
    simp [statusFor, brokenStatus, filterMap_header?]
  | truncated code headers chunks =>
    have h := pieces_chunks chunks []
    rw [List.append_nil] at h
    rw [ofFrames, h, pieces]
    simp [statusFor, brokenStatus, filterMap_header?]

/-- Frames are body frames that announce more, and then the end or some other frame. -/
theorem exists_chunks (frames : List Frame) :
    ∃ (chunks : List Bytes) (rest : List Frame), frames = chunks.map (.body · true) ++ rest ∧
      ∀ data rest', rest ≠ .body data true :: rest' := by
  induction frames with
  | nil => exact ⟨[], [], rfl, by simp⟩
  | cons frame frames ih =>
    obtain ⟨chunks, rest, rfl, hrest⟩ := ih
    match frame with
    | .body data true => exact ⟨data :: chunks, rest, rfl, hrest⟩
    | .body data false => exact ⟨[], _, rfl, by simp⟩
    | .start code headers => exact ⟨[], _, rfl, by simp⟩

theorem seen_ofFrames (frames : List Frame) : Seen frames (ofFrames frames) := by
  have hseen : ∃ answer, Seen frames answer := by
    match frames with
    | [] => exact ⟨_, .nothing⟩
    | .body data more :: rest => exact ⟨_, .bodyFirst data more rest⟩
    | .start code headers :: rest =>
      obtain ⟨chunks, rest, rfl, hrest⟩ := exists_chunks rest
      match rest with
      | [] => exact ⟨_, by simpa using Seen.truncated code headers chunks⟩
      | .body last false :: rest => exact ⟨_, .ended code headers chunks last rest⟩
      | .body last true :: rest => exact absurd rfl (hrest last rest)
      | .start code' headers' :: rest =>
        exact ⟨_, .startedTwice code headers chunks code' headers' rest⟩
  obtain ⟨answer, h⟩ := hseen
  exact h.eq_ofFrames ▸ h

end Answer

namespace Client

/-- What becomes of a client that takes frames and then learns that no more follow. -/
def reads (client : Client) (frames : List Frame) : Client := (frames.foldl take client).conclude

theorem reads_cons (client : Client) (frame : Frame) (frames : List Frame) :
    client.reads (frame :: frames) = (client.take frame).reads frames := rfl

theorem conclude_conclude (client : Client) : client.conclude.conclude = client.conclude := by
  cases client <;> rfl

theorem isFinished_conclude (client : Client) : client.conclude.isFinished := by
  cases client <;> rfl

theorem reads_finished (answer : Answer) (frames : List Frame) :
    (finished answer).reads frames = finished answer := by
  induction frames with
  | nil => rfl
  | cons frame frames ih => exact ih

theorem reads_of_isFinished {client : Client} (h : client.isFinished) (frames : List Frame) :
    client.reads frames = client := by
  cases client with
  | finished answer => exact reads_finished answer frames
  | waiting => cases h
  | reading => cases h

theorem reads_reading (status : Nat) (headers : List (Bytes × Bytes)) (chunks : List Bytes)
    (frames : List Frame) :
    (reading status headers chunks).reads frames =
      finished ⟨status, headers, chunks ++ (Answer.pieces frames).1, (Answer.pieces frames).2⟩ := by
  induction frames generalizing chunks with
  | nil => simp [reads, conclude, Answer.pieces]
  | cons frame frames ih =>
    rw [reads_cons]
    match frame with
    | .start code headers' => simp [take, reads_finished, Answer.pieces]
    | .body data true =>
      rw [take, if_pos rfl, ih, Answer.pieces]
      cases data <;> simp [Answer.addPiece]
    | .body data false =>
      rw [take, if_neg (by simp), reads_finished, Answer.pieces]
      cases data <;> simp [Answer.addPiece]

theorem reads_waiting (frames : List Frame) :
    waiting.reads frames = finished (Answer.ofFrames frames) := by
  match frames with
  | [] => rfl
  | .body data more :: rest => exact reads_finished Answer.broken rest
  | .start code headers :: rest =>
    rw [reads_cons, take, reads_reading]
    rfl

end Client

namespace Relay

/-- How much is left to do: every frame is sent and taken, and then the client concludes. -/
def work (relay : Relay) : Nat :=
  2 * relay.pending.length + relay.channel.queue.length + if relay.client.isFinished then 0 else 1

/-- Whether a turn can be taken: the handler has a frame that the channel does not keep waiting, or
the client finds a frame or knows that none follows. -/
def Ready (relay : Relay) : Turn → Prop
  | .handler => ∃ frame rest, relay.pending = frame :: rest ∧ relay.channel.send frame ≠ .full
  | .client => relay.client.isFinished = false ∧
      (relay.channel.queue ≠ [] ∨ relay.pending = [])

inductive Step (relay : Relay) : Turn → Relay → Prop
  | waits {turn : Turn} : ¬ relay.Ready turn → Step relay turn relay
  | sends {frame : Frame} {rest : List Frame} :
      relay.pending = frame :: rest → relay.channel.isOpen = true →
      Step relay .handler { relay with
        pending := rest
        channel := { relay.channel with queue := relay.channel.queue ++ [frame] } }
  | loses {frame : Frame} {rest : List Frame} :
      relay.pending = frame :: rest → relay.channel.isOpen = false →
      Step relay .handler { relay with pending := rest }
  | takes {frame : Frame} {rest : List Frame} :
      relay.client.isFinished = false → relay.channel.queue = frame :: rest →
      Step relay .client (withClient
        { relay with channel := { relay.channel with queue := rest } } (relay.client.take frame))
  | concludes :
      relay.client.isFinished = false → relay.channel.queue = [] → relay.pending = [] →
      Step relay .client (relay.withClient relay.client.conclude)

theorem step_handlerTurn (relay : Relay) : Step relay .handler relay.handlerTurn := by
  cases hpending : relay.pending with
  | nil =>
    have hturn : relay.handlerTurn = relay := by simp [handlerTurn, hpending]
    rw [hturn]
    exact .waits fun ⟨_, _, h, _⟩ => by simp [hpending] at h
  | cons frame rest =>
    cases hopen : relay.channel.isOpen with
    | false =>
      have hsend : relay.channel.send frame = .refused Channel.clientLeft := by
        simp [Channel.send, hopen]
      simp only [handlerTurn, hpending, hsend]
      exact .loses hpending hopen
    | true =>
      by_cases hfull : relay.channel.capacity ≤ relay.channel.queue.length
      · have hsend (frame : Frame) : relay.channel.send frame = .full := by
          simp [Channel.send, hopen, hfull]
        simp only [handlerTurn, hpending, hsend]
        exact .waits fun ⟨frame, _, _, h⟩ => h (hsend frame)
      · have hsend : relay.channel.send frame =
            .taken { relay.channel with queue := relay.channel.queue ++ [frame] } := by
          simp [Channel.send, hopen, hfull]
        simp only [handlerTurn, hpending, hsend]
        exact .sends hpending hopen

theorem step_clientTurn (relay : Relay) : Step relay .client relay.clientTurn := by
  cases hfinished : relay.client.isFinished with
  | true =>
    have hturn : relay.clientTurn = relay := by simp [clientTurn, hfinished]
    rw [hturn]
    exact .waits fun h => by simp [h.1] at hfinished
  | false =>
    cases hqueue : relay.channel.queue with
    | cons frame rest =>
      simp only [clientTurn, hfinished, Channel.receive, hqueue]
      exact .takes hfinished hqueue
    | nil =>
      cases hpending : relay.pending with
      | cons frame rest =>
        have hturn : relay.clientTurn = relay := by
          simp [clientTurn, hfinished, Channel.receive, hqueue, hpending]
        rw [hturn]
        exact .waits fun ⟨_, h⟩ => by simp [hqueue, hpending] at h
      | nil =>
        simp only [clientTurn, hfinished, Channel.receive, hqueue, hpending]
        exact .concludes hfinished hqueue hpending

theorem step_turn (relay : Relay) (turn : Turn) : Step relay turn (relay.turn turn) := by
  cases turn with
  | handler => exact step_handlerTurn relay
  | client => exact step_clientTurn relay

/-- What holds of a relay that was started with `frames`, whatever turns were taken: the client is
bound for the answer of these frames, and the channel is open as long as it listens. -/
structure Bound (frames : List Frame) (relay : Relay) : Prop where
  capacity : 0 < relay.channel.capacity
  listens : relay.channel.isOpen = !relay.client.isFinished
  reads : relay.client.reads (relay.channel.queue ++ relay.pending) =
    .finished (Answer.ofFrames frames)

/-- There is a channel for every buffer that fits, and the relay begins bound for its answer. -/
theorem start?_of_fits {buffer : Nat} (hbuffer : Channel.Fits buffer) (frames : List Frame) :
    ∃ first, start? buffer frames = some first ∧ first.channel.capacity = max buffer 1 ∧
      Bound frames first := by
  have hcapacity : Channel.Fits (max buffer 1) := Nat.max_le.2 ⟨hbuffer, by decide⟩
  refine ⟨⟨frames, ⟨max buffer 1, [], true⟩, .waiting⟩, ?_, rfl, ?_, rfl, ?_⟩
  · rw [start?, Channel.ofBuffer?, if_pos hcapacity, Option.map_some]
  · exact Nat.lt_of_lt_of_le Nat.one_pos (Nat.le_max_right buffer 1)
  · exact Client.reads_waiting frames

variable {frames : List Frame} {relay : Relay}

/-- A client that goes on listens on, and one that is finished leaves. -/
theorem bound_withClient (relay : Relay) (hcapacity : 0 < relay.channel.capacity)
    (hopen : relay.channel.isOpen = true) {client : Client}
    (hreads : client.reads (relay.channel.queue ++ relay.pending) =
      .finished (Answer.ofFrames frames)) : Bound frames (relay.withClient client) := by
  unfold Relay.withClient
  cases hfinished : client.isFinished with
  | true =>
    rw [Client.reads_of_isFinished hfinished] at hreads
    refine ⟨hcapacity, by simp [Channel.close, hfinished], ?_⟩
    rw [Client.reads_of_isFinished hfinished, hreads]
  | false => exact ⟨hcapacity, by simpa [hfinished] using hopen, hreads⟩

theorem Bound.step {after : Relay} {turn : Turn} (h : Bound frames relay)
    (hstep : Step relay turn after) : Bound frames after := by
  have hreads := h.reads
  cases hstep with
  | waits => exact h
  | sends hpending hopen =>
    rw [hpending] at hreads
    exact ⟨h.capacity, h.listens, by simpa using hreads⟩
  | loses hpending hclosed =>
    have hfinished : relay.client.isFinished := by simpa [hclosed] using h.listens
    rw [Client.reads_of_isFinished hfinished] at hreads
    exact ⟨h.capacity, h.listens, by rw [Client.reads_of_isFinished hfinished, hreads]⟩
  | @takes frame rest hfinished hqueue =>
    rw [hqueue] at hreads
    exact bound_withClient { relay with channel := { relay.channel with queue := rest } }
      h.capacity (by simp [h.listens, hfinished]) hreads
  | concludes hfinished hqueue hpending =>
    rw [hqueue, hpending] at hreads
    refine bound_withClient relay h.capacity (by simp [h.listens, hfinished]) ?_
    rw [hqueue, hpending]
    exact (Client.conclude_conclude relay.client).trans hreads

theorem Bound.run (h : Bound frames relay) (turns : List Turn) :
    Bound frames (relay.run turns) := by
  induction turns generalizing relay with
  | nil => exact h
  | cons turn rest ih => exact ih (h.step (step_turn relay turn))

/-! ### Headway -/

theorem work_withClient_le (relay : Relay) (client : Client) :
    (relay.withClient client).work ≤
      2 * relay.pending.length + relay.channel.queue.length +
        if client.isFinished then 0 else 1 := by
  unfold Relay.withClient work
  cases client.isFinished <;> simp [Channel.close]

/-- Every turn that can be taken leaves less to do. -/
theorem work_turn_lt (relay : Relay) {turn : Turn} (hready : relay.Ready turn) :
    (relay.turn turn).work < relay.work := by
  have hstep := step_turn relay turn
  generalize relay.turn turn = after at hstep
  cases hstep with
  | waits h => exact absurd hready h
  | sends hpending _ =>
    simp only [work, hpending, List.length_append, List.length_cons, List.length_nil]
    omega
  | loses hpending _ =>
    simp only [work, hpending, List.length_cons]
    omega
  | @takes frame rest hfinished hqueue =>
    refine Nat.lt_of_le_of_lt (work_withClient_le _ _) ?_
    have hlast : (if (relay.client.take frame).isFinished then 0 else 1) ≤ 1 := by
      split <;> simp
    simp only [work, hfinished, hqueue, List.length_cons, Bool.false_eq_true, ↓reduceIte]
    omega
  | concludes hfinished hqueue hpending =>
    refine Nat.lt_of_le_of_lt (work_withClient_le _ _) ?_
    simp [work, hfinished, hqueue, hpending, Client.isFinished_conclude]

/-- As long as the client is not finished one of the two can take a turn. -/
theorem Bound.exists_ready (h : Bound frames relay) (hfinished : relay.client.isFinished = false) :
    ∃ turn, relay.Ready turn := by
  cases hqueue : relay.channel.queue with
  | cons frame rest => exact ⟨.client, hfinished, .inl (by simp [hqueue])⟩
  | nil =>
    cases hpending : relay.pending with
    | nil => exact ⟨.client, hfinished, .inr hpending⟩
    | cons frame rest =>
      have hopen : relay.channel.isOpen = true := by simp [h.listens, hfinished]
      have hroom : ¬ relay.channel.capacity ≤ relay.channel.queue.length := by
        rw [hqueue]
        exact Nat.not_le.2 h.capacity
      exact ⟨.handler, frame, rest, hpending, by simp [Channel.send, hopen, hroom]⟩

/-- Any turns can be followed by others that lead to the end. -/
theorem exists_finished (relay : Relay) (h : Bound frames relay) :
    ∃ turns, (relay.run turns).client = .finished (Answer.ofFrames frames) := by
  cases hfinished : relay.client.isFinished with
  | true =>
    have hreads := h.reads
    rw [Client.reads_of_isFinished hfinished] at hreads
    exact ⟨[], hreads⟩
  | false =>
    obtain ⟨turn, hready⟩ := h.exists_ready hfinished
    have hless := work_turn_lt relay hready
    obtain ⟨turns, hend⟩ := exists_finished (relay.turn turn) (h.step (step_turn relay turn))
    exact ⟨turn :: turns, hend⟩
termination_by relay.work

/-- For every list of frames there is one answer, the one that `Seen` reads off them. With any
buffer that fits, after any turns, a client that is finished has it; one that is not can be brought
to it, one of the two can take a turn, and every turn that can be taken leaves less to do. -/
theorem relay_confluent (frames : List Frame) :
    ∃ answer, (∀ seen, Answer.Seen frames seen ↔ seen = answer) ∧
      ∀ buffer, Channel.Fits buffer →
        ∃ first, start? buffer frames = some first ∧ first.channel.capacity = max buffer 1 ∧
          ∀ turns : List Turn,
            let relay := first.run turns
            (∀ seen, relay.client = .finished seen → seen = answer) ∧
            (relay.client.isFinished = false → ∃ turn, relay.Ready turn) ∧
            (∀ turn, relay.Ready turn → (relay.turn turn).work < relay.work) ∧
            ∃ more, (relay.run more).client = .finished answer := by
  refine ⟨Answer.ofFrames frames, fun seen => ⟨Answer.Seen.eq_ofFrames, ?_⟩, ?_⟩
  · rintro rfl
    exact Answer.seen_ofFrames frames
  · intro buffer hbuffer
    obtain ⟨first, hstart, hcapacity, hfirst⟩ := start?_of_fits hbuffer frames
    refine ⟨first, hstart, hcapacity, fun turns => ?_⟩
    intro relay
    have hbound : Bound frames relay := hfirst.run turns
    refine ⟨fun seen hseen => ?_, hbound.exists_ready, fun _ => work_turn_lt relay,
      exists_finished relay hbound⟩
    have hreads := hbound.reads
    rw [hseen, Client.reads_finished] at hreads
    exact Client.finished.inj hreads

/-- No buffer at all, a header in capitals, one that HTTP does not allow, an empty piece, and frames
behind the final one. -/
theorem relay_confluent_without_buffer :
    let frames : List Frame := [
      .start 1000 [(.ofString "X-Tag", [49]), (.ofString "a b", [50]), (.ofString "ok", [10])],
      .body [1] true, .body [] true, .body [2] false, .start 200 [], .body [3] true]
    let answer : Answer := ⟨500, [(.ofString "x-tag", [49])], [[1], [2]], none⟩
    Channel.Fits 0 ∧ ∃ first, start? 0 frames = some first ∧ first.channel.capacity = 1 ∧
      ∀ turns, (∀ seen, (first.run turns).client = .finished seen → seen = answer) ∧
        ∃ more, ((first.run turns).run more).client = .finished answer := by
  intro frames answer
  have hfits : Channel.Fits 0 := Nat.zero_le _
  obtain ⟨found, hseen, hbuffers⟩ := relay_confluent frames
  have hfound : answer = found :=
    (hseen answer).1 (.ended 1000 _ [[1], []] [2] [.start 200 [], .body [3] true])
  subst hfound
  obtain ⟨first, hstart, hcapacity, hturns⟩ := hbuffers 0 hfits
  exact ⟨hfits, first, hstart, hcapacity, fun turns =>
    ⟨(hturns turns).1, (hturns turns).2.2.2⟩⟩

end Relay

end DocumentServer
