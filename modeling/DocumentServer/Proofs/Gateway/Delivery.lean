import DocumentServer.Gateway.Service
import DocumentServer.Proofs.Bytes
import DocumentServer.Proofs.Gateway.Confluence
import DocumentServer.Proofs.Reply.Emission
import DocumentServer.Proofs.Stream.Growing
import DocumentServer.Proofs.Stream.Session
import Mathlib.Data.List.Basic

/-! Replies as their clients see them. What a handler gives back for a request goes through the
channel to the client, who sees the status and the headers of the start frame and the whole body.
Headers that HTTP does not allow are left out; nothing else is lost or added on the way. -/
namespace DocumentServer

namespace Answer

/-! ### Headers -/

theorem toNat_toLower (c : Char) : c.toLower.toNat < 65 ∨ 90 < c.toLower.toNat := by
  unfold Char.toLower
  split
  next h =>
    have hlow : 65 ≤ c.val.toNat := h.1
    have hhigh : c.val.toNat ≤ 90 := h.2
    have hshift : (32 : UInt32).toNat = 32 := rfl
    refine .inr ?_
    show 90 < (c.val + 32).toNat
    rw [UInt32.toNat_add]
    omega
  next h =>
    have hother : ¬ (65 ≤ c.toNat ∧ c.toNat ≤ 90) := h
    omega

/-- A text in small letters has no bytes of capital letters. -/
theorem toNat_of_mem_lower {name : String} {byte : UInt8}
    (h : byte ∈ Bytes.ofString (Ascii.lower name)) : byte.toNat < 65 ∨ 90 < byte.toNat := by
  rw [Bytes.ofString_eq, Bytes.ofChars, List.mem_flatMap] at h
  obtain ⟨c, hc, hbyte⟩ := h
  rw [Ascii.lower, String.toList_map, List.mem_map] at hc
  obtain ⟨c, -, rfl⟩ := hc
  by_cases hascii : c.toLower.toNat < 128
  · rw [Bytes.utf8EncodeChar_ascii hascii, List.mem_singleton] at hbyte
    rw [hbyte, Bytes.toNat_ofNat_ascii hascii]
    exact toNat_toLower c
  · have hhigh := Bytes.le_of_mem_utf8EncodeChar (Nat.not_lt.1 hascii) hbyte
    omega

/-- The headers of a start frame that reach a client are those that are allowed. -/
theorem visible_wire (headers : Headers) :
    visible headers.wire = headers.wire.filter (Allowed ·) := by
  have hsmall (header : Bytes × Bytes) (member : header ∈ headers.wire) :
      (header.1.map smallByte, header.2) = header := by
    obtain ⟨entry, -, rfl⟩ := List.mem_map.1 member
    rw [map_smallByte fun byte => toNat_of_mem_lower]
  rw [visible,
    List.map_congr_left fun header member => hsmall header (List.mem_filter.1 member).1,
    List.map_id']

def values (answer : Answer) (name : Bytes) : List Bytes :=
  (answer.headers.filter (·.1 = name)).map (·.2)

/-! ### Whole answers -/

/-- The answer shows the status, the headers and the body that were sent. -/
structure Shows (answer : Answer) (status : StatusCode) (headers : Headers) (body : Bytes) :
    Prop where
  status : answer.status = status.val
  body : answer.body = body
  /-- The body does not break off. -/
  clean : answer.fault = none
  /-- Every header has the values that were sent under its name, less the pairs that HTTP does not
  allow. -/
  values : ∀ name, answer.values name =
    (headers.wire.filter fun header => Allowed header ∧ header.1 = name).map (·.2)

theorem shows_answer (status : StatusCode) (headers : Headers) (chunks : List Bytes)
    (last : Bytes) :
    (ofFrames (Frame.answer status.val headers.wire chunks (some last))).Shows status headers
      (chunks.flatten ++ last) := by
  have hseen := Seen.ended status.val headers.wire chunks last []
  have hcode : shown status.val = status.val := by
    have hrange := status.inRange
    exact if_pos (by omega)
  have hframes : Frame.answer status.val headers.wire chunks (some last) =
      .start status.val headers.wire :: (chunks.map (.body · true) ++ .body last false :: []) := rfl
  rw [hframes, ← hseen.eq_ofFrames]
  refine ⟨hcode, ?_, rfl, fun name => ?_⟩
  · rw [Answer.body, List.flatten_filter_ne_nil]
    simp
  · simp only [Answer.values]
    rw [visible_wire, List.filter_filter]
    refine congrArg (List.map Prod.snd) (List.filter_congr fun header _ => ?_)
    rw [Bool.decide_and, Bool.and_comm]

end Answer

namespace HandlerResult

/-! ### Frames -/

variable {request : Request} {lines : Lines}

/-- An answer whose line is known to begin with a start frame has that start frame. -/
theorem frames_of_startFrame {opening : Stream} {after : Lines} {status : Nat}
    {headers : List (Bytes × Bytes)} {chunks : List Bytes} {last : Option Bytes} {i : Nat}
    (hempty : (lines i).frames = []) (hbegins : [opening.startFrame] <+: (after i).frames)
    (hcarried : Stream.Carried (fun j => (lines j).frames) after i
      (Frame.answer status headers chunks last)) :
    (after i).frames =
      Frame.answer opening.status.val opening.startHeaders.wire chunks last := by
  have hframes := hcarried.frames
  rw [hempty, List.nil_append] at hframes
  rw [hframes, Frame.answer, List.cons_prefix_cons] at hbegins
  obtain ⟨hsame, -⟩ := hbegins
  obtain ⟨rfl, rfl⟩ := Frame.start.inj hsame
  exact hframes

section Accepted

variable (hempty : (lines request.line).frames = [])
  (haccepts : ∀ n, ((lines request.line).reception n).refusal = none)

include hempty haccepts

theorem frames_sendFull (response : Response) :
    ((sendFull response .untilDone request lines).2 request.line).frames =
      Frame.answer response.status.val response.sentHeaders.wire [] (some response.body) := by
  simp only [sendFull, Lines.set_self]
  rw [Response.frames_send (response.send_done haccepts), hempty]
  rfl

section Stream

variable {stream : Stream} {calls : List (Patience × Stream.Call)} (hhook : request.hook = [])
  (hfresh : stream.phase = .notStarted)
  (hasked : ∀ entry ∈ calls, ∀ request', entry.2.request? = some request' → request' = request)

include hhook hfresh hasked

omit hempty in
/-- A stream that is given back as the reply to its own request is recorded as ended. -/
theorem recorded_finish :
    let before := stream.run lines calls
    let past := stream.succeeded lines calls
    let after := finish before.1 .untilDone request before.2
    Stream.Recorded (·.line = request.line) (fun i => (lines i).frames) after.2.2
      (past.filterMap (·.chunk?)) (some ((past.filterMap (·.last?)).head?.getD []))
      after.2.1.phase := by
  intro before past after
  have hrun := (Stream.recorded_fresh (·.line = request.line) hfresh lines).run calls
    fun entry member request' h => by rw [hasked entry member request' h]
  simp only [List.nil_append, Option.none_or] at hrun
  have hdone : after.1 = .done () := by
    have hquiet := Stream.Hook.quiet_own request
    rw [show after = _ from (finishWith_own .untilDone request before.2 before.1).symm]
    refine finish_succeeds hrun (fun n => ?_) hquiet fun _ => ?_
    · rw [(stream.grow_run lines calls request.line).reception]
      exact haccepts n
    · simp only [Stream.Hook.own, hhook, Stream.runHook]
  have hline : request.line = request.line := rfl
  have hfinish := hrun.finish .untilDone hline
  have hlast (last : Option Bytes) : last.or (some []) = some (last.getD []) := by
    cases last <;> rfl
  dsimp only at hfinish
  rw [if_pos hdone, hlast] at hfinish
  exact hfinish

/-- A stream that is given back as the reply to its own request sends one whole answer: the start
frame shows what the stream was when it started, and the body is what was written. -/
theorem frames_finish :
    let before := stream.run lines calls
    let opening := stream.opening lines calls
    let past := stream.succeeded lines calls
    ((finish before.1 .untilDone request before.2).2.2 request.line).frames =
      Frame.answer opening.status.val opening.startHeaders.wire (past.filterMap (·.chunk?))
        (some ((past.filterMap (·.last?)).head?.getD [])) := by
  intro before opening past
  have hbegins := Stream.startFrame_opening hhook hasked hfresh haccepts
  rw [hempty, List.nil_append] at hbegins
  have hrecorded := recorded_finish haccepts hhook hfresh hasked
  dsimp only at hrecorded
  generalize (finish before.1 .untilDone request before.2).2.1.phase = phase at hrecorded
  cases hrecorded with
  | notStarted _ _ hnone => cases hnone
  | prepared hline _ _ hcarried =>
    rw [hline] at hcarried
    exact frames_of_startFrame hempty hbegins hcarried
  | closed hline _ hcarried =>
    rw [hline] at hcarried
    exact frames_of_startFrame hempty hbegins hcarried

end Stream

end Accepted

/-! ### Replies -/

/-- What a handler gives back for its request, with the status, the headers and the body of it: a
complete response, in place of a failure or not, or a stream that was prepared for this request, if
it was prepared at all. A stream is taken as it was when it started; its body is what the successful
calls wrote, the one that ended it included. -/
inductive Offers (request : Request) (lines : Lines) :
    HandlerResult → Lines → StatusCode → Headers → Bytes → Prop
  | full (response : Response) : Offers request lines (.ok (.full response)) lines
      response.status response.sentHeaders response.body
  | error (response : Response) : Offers request lines (.error response) lines
      response.status response.sentHeaders response.body
  | stream {stream : Stream} (calls : List (Patience × Stream.Call)) :
      stream.phase = .notStarted →
      (∀ entry ∈ calls, ∀ request', entry.2.request? = some request' → request' = request) →
      Offers request lines (.ok (.stream (stream.run lines calls).1)) (stream.run lines calls).2
        (stream.opening lines calls).status (stream.opening lines calls).startHeaders
        (((stream.succeeded lines calls).filterMap (·.chunk?)).flatten ++
          ((stream.succeeded lines calls).filterMap (·.last?)).head?.getD [])

variable {result : HandlerResult} {lines' : Lines} {status : StatusCode} {headers : Headers}
  {body : Bytes}

theorem shows_emit (hhook : request.hook = []) (hempty : (lines request.line).frames = [])
    (haccepts : ∀ n, ((lines request.line).reception n).refusal = none)
    (h : Offers request lines result lines' status headers body) :
    (Answer.ofFrames ((result.emit .untilDone request lines').2 request.line).frames).Shows
      status headers body := by
  cases h with
  | full response =>
    rw [emit, frames_sendFull hempty haccepts response]
    exact Answer.shows_answer response.status response.sentHeaders [] response.body
  | error response =>
    rw [emit, frames_sendFull hempty haccepts response]
    exact Answer.shows_answer response.status response.sentHeaders [] response.body
  | stream calls hfresh hasked =>
    have hframes := frames_finish hempty haccepts hhook hfresh hasked
    rw [emit, hframes]
    exact Answer.shows_answer ..

/-- A client that listens to the end sees what the handler gave back, whatever buffer that fits the
channel was made with and in whatever order the two take their turns: its status, its body from the
beginning to the end, and of its headers those that HTTP allows. -/
theorem delivers (hhook : request.hook = []) (hempty : (lines request.line).frames = [])
    (haccepts : ∀ n, ((lines request.line).reception n).refusal = none)
    (h : Offers request lines result lines' status headers body) :
    (Service.conclude (some result) request lines').Shows status headers body ∧
      ∀ buffer, Channel.Fits buffer →
        let frames := ((result.emit .untilDone request lines').2 request.line).frames
        ∃ first, Relay.start? buffer frames = some first ∧
          ∀ turns : List Turn,
            let relay := first.run turns
            (∀ answer, relay.client = .finished answer → answer.Shows status headers body) ∧
              ∃ more answer, (relay.run more).client = .finished answer := by
  have hshows := shows_emit hhook hempty haccepts h
  refine ⟨hshows, fun buffer hbuffer => ?_⟩
  intro frames
  obtain ⟨first, hstart, -, hfirst⟩ := Relay.start?_of_fits hbuffer frames
  refine ⟨first, hstart, fun turns => ?_⟩
  intro relay
  have hbound : relay.Bound frames := hfirst.run turns
  obtain ⟨more, hend⟩ := Relay.exists_finished relay hbound
  refine ⟨fun answer hanswer => ?_, more, _, hend⟩
  have hreads := hbound.reads
  rw [hanswer, Client.reads_finished] at hreads
  rw [Client.finished.inj hreads]
  exact hshows

/-- A stream whose status is changed before and after its start, with a header that HTTP does not
allow, and that is left open. -/
theorem delivers_open_stream :
    let request : Request := ⟨"GET", "/", none, [], 0⟩
    let stream : Stream :=
      ⟨0, Status.ok.statusCode, (∅ : Headers).append "a b" "1", none, none, none, ∅, .notStarted⟩
    let calls : List (Patience × Stream.Call) := [(.untilDone, .edit (.status 404)),
      (.untilDone, .prepare request), (.untilDone, .write [1]), (.untilDone, .edit (.status 410)),
      (.untilDone, .write []), (.untilDone, .write [2])]
    let before := stream.run Service.freshLines calls
    let answer := Service.conclude (some (.ok (.stream before.1))) request before.2
    answer.status = 404 ∧ answer.body = [1, 2] ∧ answer.values (.ofString "a b") = [] ∧
      let frames := ((HandlerResult.emit (.ok (.stream before.1)) .untilDone request
        before.2).2 request.line).frames
      Channel.Fits 16 ∧ ∃ first, Relay.start? 16 frames = some first ∧
        ∀ turns seen, (first.run turns).client = .finished seen → seen.status = 404 := by
  intro request stream calls before answer
  have hoffers : Offers request Service.freshLines (.ok (.stream before.1)) before.2 _ _ _ :=
    .stream calls rfl (by simp [calls, Stream.Call.request?])
  obtain ⟨hshows, hbuffers⟩ := delivers rfl rfl (fun _ => rfl) hoffers
  have hfits : Channel.Fits 16 := by decide
  obtain ⟨first, hstart, hturns⟩ := hbuffers 16 hfits
  refine ⟨hshows.status, hshows.body, ?_, hfits, first, hstart, fun turns seen hseen => ?_⟩
  · rw [hshows.values]
    decide +kernel
  · exact ((hturns turns).1 seen hseen).status

end HandlerResult

end DocumentServer
