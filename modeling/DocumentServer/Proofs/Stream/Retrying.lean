import DocumentServer.Proofs.Http.Headers
import DocumentServer.Proofs.Stream.Growing

/-! Starts that fail. A stream decides on keeping the connection and completes its headers before it
offers the start frame, and it takes neither back if the line refuses the frame or the caller gives
up. So a later start finds the decision of the failed one as if the caller had asked for it, and
sends the content type and the content length of the failed one, whatever was set in between. The
other headers, and everything else, are as if there had been no attempt. -/
namespace DocumentServer

/-- The hook of a request changes nothing. -/
def Request.Passive (request : Request) : Prop :=
  ∀ stream, Stream.runHook request.hook stream = (.ok (), stream)

namespace StreamEdit

def onHeaders : StreamEdit → Headers → Headers
  | .headers edit, before => before.edit edit
  | _, before => before

def onKeepAlive : StreamEdit → Option Bool → Option Bool
  | .keepAlive value, _ => some value
  | _, wish => wish

/-- What changes one after the other make of the headers. -/
def headersAfter : List StreamEdit → Headers → Headers
  | [], before => before
  | edit :: rest, before => headersAfter rest (edit.onHeaders before)

/-- What changes one after the other make of the wish to keep the connection. -/
def wishAfter : List StreamEdit → Option Bool → Option Bool
  | [], before => before
  | edit :: rest, before => wishAfter rest (edit.onKeepAlive before)

/-- Whether a change is one of the headers themselves. -/
def isHeaders : StreamEdit → Bool
  | .headers _ => true
  | _ => false

/-- Whether a change can show in the headers of a start frame. -/
def showsInHeaders : StreamEdit → Bool
  | .headers _ => true
  | .contentType _ => true
  | .contentLength _ => true
  | _ => false

end StreamEdit

namespace Stream

open StreamEdit (headersAfter wishAfter)

/-- The stream after a change, which is none if the change is refused. -/
def changed (stream : Stream) (edit : StreamEdit) : Stream :=
  match stream.edit edit with
  | .ok after => after
  | .error _ => stream

/-- The stream after changes one after the other. -/
def edited (stream : Stream) : List StreamEdit → Stream
  | [] => stream
  | edit :: rest => (stream.changed edit).edited rest

/-! ### Changes -/

variable {stream : Stream} {request : Request}

theorem phase_changed (stream : Stream) (edit : StreamEdit) :
    (stream.changed edit).phase = stream.phase := by
  unfold changed
  split
  next after h => exact phase_edit h
  next => rfl

theorem phase_edited (stream : Stream) (edits : List StreamEdit) :
    (stream.edited edits).phase = stream.phase := by
  induction edits generalizing stream with
  | nil => rfl
  | cons edit rest ih => exact (ih _).trans (stream.phase_changed edit)

/-- Headers and the wish to keep the connection go their own ways: no change of another field reads
them. -/
theorem changed_with (stream : Stream) (wish : Option Bool) (headers : Headers)
    (edit : StreamEdit) :
    { stream with keepAlive := wish, headers }.changed edit =
      { stream.changed edit with
        keepAlive := edit.onKeepAlive wish, headers := edit.onHeaders headers } := by
  cases edit with
  | status code =>
    simp only [changed, Stream.edit]
    cases StatusCode.ofNat? code <;> rfl
  | _ => rfl

theorem edited_with (stream : Stream) (wish : Option Bool) (headers : Headers)
    (edits : List StreamEdit) :
    { stream with keepAlive := wish, headers }.edited edits =
      { stream.edited edits with
        keepAlive := wishAfter edits wish, headers := headersAfter edits headers } := by
  induction edits generalizing stream wish headers with
  | nil => rfl
  | cons edit rest ih =>
    rw [edited, changed_with, ih]
    rfl

/-- The last wish counts. -/
theorem wishAfter_eq (edits : List StreamEdit) (wish : Option Bool) :
    wishAfter edits wish = (wishAfter edits none).or wish := by
  induction edits generalizing wish with
  | nil => rfl
  | cons edit rest ih =>
    rw [wishAfter, wishAfter, ih, ih (edit.onKeepAlive none), Option.or_assoc]
    cases edit <;> rfl

theorem headersAfter_eq {edits : List StreamEdit} (h : ∀ edit ∈ edits, edit.isHeaders = false)
    (headers : Headers) : headersAfter edits headers = headers := by
  induction edits with
  | nil => rfl
  | cons edit rest ih =>
    obtain ⟨hedit, hrest⟩ := List.forall_mem_cons.1 h
    have hsame : edit.onHeaders headers = headers := by
      cases edit with
      | headers => cases hedit
      | _ => rfl
    rw [headersAfter, hsame, ih hrest]

theorem getAll_headersAfter {headers headers' : Headers} {name : String}
    (h : headers.getAll name = headers'.getAll name) (edits : List StreamEdit) :
    (headersAfter edits headers).getAll name = (headersAfter edits headers').getAll name := by
  induction edits generalizing headers headers' with
  | nil => exact h
  | cons edit rest ih =>
    refine ih ?_
    cases edit with
    | headers edit => exact Headers.getAll_edit_congr h edit
    | _ => exact h

/-! ### Start headers -/

theorem startHeaders_changed {edit : StreamEdit} (h : edit.showsInHeaders = false)
    (stream : Stream) : (stream.changed edit).startHeaders = stream.startHeaders := by
  cases edit with
  | status code =>
    simp only [changed, Stream.edit]
    cases StatusCode.ofNat? code <;> rfl
  | keepAlive => rfl
  | scratch => rfl
  | _ => cases h

theorem startHeaders_edited {edits : List StreamEdit}
    (h : ∀ edit ∈ edits, edit.showsInHeaders = false) (stream : Stream) :
    (stream.edited edits).startHeaders = stream.startHeaders := by
  induction edits generalizing stream with
  | nil => rfl
  | cons edit rest ih =>
    obtain ⟨hedit, hrest⟩ := List.forall_mem_cons.1 h
    exact (ih hrest _).trans (startHeaders_changed hedit stream)

/-- The headers that a start adds. -/
def IsContentHeader (name : String) : Prop :=
  Ascii.sameName "Content-Type" name = true ∨ Ascii.sameName "Content-Length" name = true

/-- A start leaves the values of other headers as they are. -/
theorem getAll_startHeaders {name : String} (h : ¬ IsContentHeader name) (stream : Stream) :
    stream.startHeaders.getAll name = stream.headers.getAll name := by
  obtain ⟨htype, hlength⟩ := not_or.1 h
  unfold startHeaders
  split
  · rw [Headers.getAll_setDefault, if_neg fun h => hlength h.1, Headers.getAll_setDefault,
      if_neg fun h => htype h.1]
  · rw [Headers.getAll_setDefault, if_neg fun h => htype h.1]

theorem getAll_startHeaders_type (h : stream.headers.contains "Content-Type" = true) :
    stream.startHeaders.getAll "Content-Type" = stream.headers.getAll "Content-Type" := by
  have hother : ¬ Ascii.sameName "Content-Length" "Content-Type" = true := by decide
  unfold startHeaders
  rw [Headers.setDefault_of_contains _ _ _ h]
  split
  · rw [Headers.getAll_setDefault, if_neg fun h => hother h.1]
  · rfl

theorem contains_startHeaders_type (stream : Stream) :
    stream.startHeaders.contains "Content-Type" = true := by
  unfold startHeaders
  split
  · exact Headers.contains_setDefault _ _ _ _ (Headers.contains_setDefault_self ..)
  · exact Headers.contains_setDefault_self ..

/-- Completed headers are complete. -/
theorem startHeaders_readied (stream : Stream) (request : Request) :
    (stream.readied request).startHeaders = stream.startHeaders := by
  have htype := Headers.setDefault_of_contains stream.startHeaders "Content-Type"
    (stream.contentType.getD defaultContentType) stream.contains_startHeaders_type
  unfold startHeaders at htype ⊢
  cases hlength : stream.contentLength with
  | none => simpa only [readied, startHeaders, hlength] using htype
  | some length =>
    simp only [hlength] at htype
    simp only [readied, startHeaders, hlength, htype]
    exact Headers.setDefault_of_contains _ _ _ (Headers.contains_setDefault_self ..)

/-! ### Starts after a failed one -/

section Retry

variable {first second : Request} {patience : Patience} {lines : Lines}

theorem prepare_passive (hfresh : stream.phase = .notStarted) (hpassive : request.Passive)
    (patience : Patience) (lines : Lines) :
    let sending := (lines request.line).send patience stream.startFrame
    stream.prepare patience request lines =
      (sending.1,
        if sending.1 = .done () then (stream.readied request).withWriter request .fresh
          else stream.readied request,
        lines.set request.line sending.2) := by
  intro sending
  have hstart := stream.start_eq patience request lines
  simp only [prepare_eq, hfresh, hpassive stream]
  exact hstart

/-- Headers, status and the decision on the connection are settled before the start frame leaves. -/
theorem settled_prepare (hfresh : stream.phase = .notStarted) (hpassive : request.Passive)
    (patience : Patience) (lines : Lines) :
    let after := (stream.prepare patience request lines).2.1
    after.status = stream.status ∧ after.headers = stream.startHeaders ∧
      after.keepAlive = some ((stream.keepAlive <|> request.keepAlive).getD true) := by
  rw [prepare_passive hfresh hpassive]
  dsimp only
  split <;> exact ⟨rfl, rfl, rfl⟩

/-- A start that fails leaves the stream as it was about to start, and nothing on the lines. -/
theorem prepare_failed (hfresh : stream.phase = .notStarted) (hpassive : first.Passive)
    (hfailed : (stream.prepare patience first lines).1 ≠ .done ()) :
    (stream.prepare patience first lines).2.1 = stream.readied first ∧
      ∀ i, ((stream.prepare patience first lines).2.2 i).frames = (lines i).frames := by
  have hsent := (lines first.line).frames_send patience stream.startFrame
  rw [prepare_passive hfresh hpassive] at hfailed ⊢
  rw [if_neg hfailed, List.append_nil] at hsent
  refine ⟨if_neg hfailed, fun i => ?_⟩
  dsimp only
  by_cases hi : i = first.line
  · subst hi
    rw [Lines.set_self, hsent]
  · rw [Lines.set_of_ne _ _ hi]

/-- What is sent for a passive request depends on the start frame only. -/
theorem sent_prepare_congr {other : Stream} (hfresh : stream.phase = .notStarted)
    (hfresh' : other.phase = .notStarted) (hpassive : request.Passive)
    (hframe : stream.startFrame = other.startFrame) :
    (stream.prepare patience request lines).1 = (other.prepare patience request lines).1 ∧
      (stream.prepare patience request lines).2.2 = (other.prepare patience request lines).2.2 := by
  rw [prepare_passive hfresh hpassive, prepare_passive hfresh' hpassive, hframe]
  exact ⟨rfl, rfl⟩

/-! Beside the stream that a failed start leaves, and that is changed since, stands the one that is
changed without that start. -/

theorem edited_readied (stream : Stream) (first : Request) (edits : List StreamEdit) :
    (stream.readied first).edited edits =
      { stream.edited edits with
        keepAlive := wishAfter edits (some ((stream.keepAlive <|> first.keepAlive).getD true))
        headers := headersAfter edits stream.startHeaders } :=
  edited_with stream _ _ edits

theorem status_edited_readied (stream : Stream) (first : Request) (edits : List StreamEdit) :
    ((stream.readied first).edited edits).status = (stream.edited edits).status := by
  rw [edited_readied]

theorem headers_edited_readied (stream : Stream) (first : Request) (edits : List StreamEdit) :
    ((stream.readied first).edited edits).headers = headersAfter edits stream.startHeaders := by
  rw [edited_readied]

theorem keepAlive_edited (stream : Stream) (edits : List StreamEdit) :
    (stream.edited edits).keepAlive = wishAfter edits stream.keepAlive :=
  congrArg Stream.keepAlive (edited_with stream stream.keepAlive stream.headers edits)

theorem headers_edited (stream : Stream) (edits : List StreamEdit) :
    (stream.edited edits).headers = headersAfter edits stream.headers :=
  congrArg Stream.headers (edited_with stream stream.keepAlive stream.headers edits)

/-- The decision of the failed start stands, unless a wish says otherwise. -/
theorem decided_iff (stream : Stream) (first second : Request) (edits : List StreamEdit) :
    (((stream.readied first).edited edits).keepAlive <|> second.keepAlive).getD true =
        ((stream.edited edits).keepAlive <|> second.keepAlive).getD true ↔
      (stream.edited edits).keepAlive.isSome = true ∨
        first.keepAlive.getD true = second.keepAlive.getD true := by
  rw [edited_readied, keepAlive_edited]
  dsimp only
  rw [wishAfter_eq edits (some _), wishAfter_eq edits stream.keepAlive]
  cases wishAfter edits none with
  | some wish => simp
  | none => cases stream.keepAlive <;> simp

/-- The start frame is the one that would have been sent without the failed start, if that start had
no header to add or if nothing that shows in the headers was set since. -/
theorem startFrame_retried {edits : List StreamEdit}
    (h : stream.startHeaders = stream.headers ∨
      ∀ edit ∈ edits, edit.showsInHeaders = false) :
    ((stream.readied first).edited edits).startFrame = (stream.edited edits).startFrame := by
  have hheaders : ((stream.readied first).edited edits).startHeaders =
      (stream.edited edits).startHeaders := by
    rcases h with hcomplete | hplain
    · rw [edited_readied, hcomplete, ← headers_edited]
      rfl
    · rw [startHeaders_edited hplain, startHeaders_edited hplain, startHeaders_readied]
  rw [startFrame, startFrame, status_edited_readied, hheaders]

/-- What a failed start leaves behind: the headers that it added and its decision on the connection.
A later start, after any changes, is the same as without the failed one as far as these do not
count. -/
theorem retry_after_failed_start (hfresh : stream.phase = .notStarted) (hfirst : first.Passive)
    (hsecond : second.Passive) (hfailed : (stream.prepare patience first lines).1 ≠ .done ())
    (edits : List StreamEdit) (patience' : Patience) (lines' : Lines) :
    let failed := (stream.prepare patience first lines).2.1
    let retried := (failed.edited edits).prepare patience' second lines'
    let direct := (stream.edited edits).prepare patience' second lines'
    failed = { stream with
        keepAlive := some ((stream.keepAlive <|> first.keepAlive).getD true)
        headers := stream.startHeaders } ∧
      (∀ i, ((stream.prepare patience first lines).2.2 i).frames = (lines i).frames) ∧
      (retried.2.1.keepAlive = direct.2.1.keepAlive ↔
        (stream.edited edits).keepAlive.isSome = true ∨
          first.keepAlive.getD true = second.keepAlive.getD true) ∧
      retried.2.1.status = direct.2.1.status ∧
      (∀ name, ¬ IsContentHeader name →
        retried.2.1.headers.getAll name = direct.2.1.headers.getAll name) ∧
      ((∀ edit ∈ edits, edit.isHeaders = false) →
        retried.2.1.headers.getAll "Content-Type" = stream.startHeaders.getAll "Content-Type") ∧
      (stream.startHeaders = stream.headers ∨ (∀ edit ∈ edits, edit.showsInHeaders = false) →
        retried.1 = direct.1 ∧ retried.2.2 = direct.2.2) := by
  intro failed retried direct
  obtain ⟨hleft, hframes⟩ := prepare_failed hfresh hfirst hfailed
  have hretried : retried =
      ((stream.readied first).edited edits).prepare patience' second lines' := by
    show (failed.edited edits).prepare patience' second lines' = _
    rw [show failed = stream.readied first from hleft]
  have hfresh' : ((stream.readied first).edited edits).phase = .notStarted := by
    rw [phase_edited]
    exact hfresh
  have hdirect : (stream.edited edits).phase = .notStarted := by rw [phase_edited, hfresh]
  obtain ⟨hstatus, hheaders, hdecided⟩ := settled_prepare hfresh' hsecond patience' lines'
  obtain ⟨hstatus', hheaders', hdecided'⟩ := settled_prepare hdirect hsecond patience' lines'
  rw [hretried]
  refine ⟨hleft, hframes, ?_, ?_, fun name hname => ?_, fun hno => ?_, fun hsame => ?_⟩
  · rw [hdecided, hdecided', Option.some_inj]
    exact decided_iff stream first second edits
  · rw [hstatus, hstatus', status_edited_readied]
  · rw [hheaders, hheaders', getAll_startHeaders hname, getAll_startHeaders hname,
      headers_edited_readied, headers_edited]
    exact getAll_headersAfter (getAll_startHeaders hname stream) edits
  · have hkept : ((stream.readied first).edited edits).headers = stream.startHeaders := by
      rw [headers_edited_readied, headersAfter_eq hno]
    rw [hheaders, getAll_startHeaders_type, hkept]
    rw [hkept]
    exact stream.contains_startHeaders_type
  · exact sent_prepare_congr hfresh' hdirect hsecond (startFrame_retried hsame)

/-- The first request does not want to keep its connection and the second one does not say. The
content type that is set in between is not sent. -/
theorem retry_after_failed_start_on_another_line :
    let stream : Stream := ⟨0, Status.ok.statusCode, ∅, none, none, none, ∅, .notStarted⟩
    let first : Request := ⟨"GET", "/", some false, [], 0⟩
    let second : Request := ⟨"GET", "/", none, [], 1⟩
    let lines : Lines := fun i => .fresh fun _ => ⟨false, if i = 0 then some "gone" else none⟩
    let edits : List StreamEdit := [.contentType "text/csv"]
    let failed := stream.prepare .untilDone first lines
    let retried := (failed.2.1.edited edits).prepare .untilDone second lines
    let direct := (stream.edited edits).prepare .untilDone second lines
    stream.phase = .notStarted ∧ first.Passive ∧ second.Passive ∧ failed.1 ≠ .done () ∧
      retried.2.1.keepAlive ≠ direct.2.1.keepAlive ∧
      retried.2.1.headers.getAll "Content-Type" = ["application/octet-stream"] := by
  intro stream first second lines edits failed retried direct
  have hfirst : first.Passive := fun _ => rfl
  have hsecond : second.Passive := fun _ => rfl
  have hfailed : failed.1 ≠ .done () := by decide
  obtain ⟨-, -, hdecided, -, -, htype, -⟩ :=
    retry_after_failed_start rfl hfirst hsecond hfailed edits .untilDone lines
  refine ⟨rfl, hfirst, hsecond, hfailed, ?_, (htype (by decide)).trans (by decide)⟩
  rw [ne_eq, hdecided]
  decide

/-- A failed start changes the headers and the wish to keep the connection, and the start after it
sends other headers and decides otherwise than it would have done without the failed one. -/
theorem changed_by_failed_start :
    let stream : Stream := ⟨0, Status.ok.statusCode, ∅, none, none, none, ∅, .notStarted⟩
    let first : Request := ⟨"GET", "/", some false, [], 0⟩
    let second : Request := ⟨"GET", "/", none, [], 1⟩
    let lines : Lines := fun i => .fresh fun _ => ⟨false, if i = 0 then some "gone" else none⟩
    let edits : List StreamEdit := [.contentType "text/csv"]
    let (outcome, failed, lines') := stream.prepare .untilDone first lines
    let retried := (failed.edited edits).prepare .untilDone second lines'
    let direct := (stream.edited edits).prepare .untilDone second lines
    outcome = .failed (.transport "gone") ∧
      failed.headers ≠ stream.headers ∧ failed.keepAlive ≠ stream.keepAlive ∧
      (retried.2.2 1).frames ≠ (direct.2.2 1).frames ∧
      retried.2.1.keepAlive ≠ direct.2.1.keepAlive := by
  decide +kernel

end Retry

end Stream

end DocumentServer
