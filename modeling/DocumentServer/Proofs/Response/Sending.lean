import DocumentServer.Proofs.Http.Multimap
import DocumentServer.Proofs.Transport.Frames
import DocumentServer.Response.Send

/-! Complete responses, from the arguments of their constructors to the frames on a line. Whichever
constructor returns a response, and whatever is done to its headers afterwards, it has the code that
was asked for and the payload that was given, unless the code leaves no room for a body. It is sent
as a start frame and one final piece; a payload adds its content type and the number of its bytes to
the headers that lack them. -/
namespace DocumentServer

/-- Exactly three codes leave no room for a body. -/
theorem emptyBodyCode_iff (code : Nat) :
    emptyBodyCode code = true ↔ code = 204 ∨ code = 205 ∨ code = 304 := by
  constructor
  · intro h
    obtain ⟨status, hstatus, hempty⟩ := (Option.any_eq_true _ _).1 h
    have hcode : status.code = code := by simpa using List.find?_some hstatus
    subst hcode
    revert hempty
    cases status <;> decide
  · rintro (rfl | rfl | rfl) <;> decide

namespace Payload

/-- The body that a payload is sent as. -/
def bytes : Payload → Bytes
  | document content => content.encode
  | raw data => data
  | empty => []

def contentType? : Payload → Option String
  | document _ => some "application/json"
  | raw _ => some "application/octet-stream"
  | empty => none

/-- What a payload adds to headers on the wire, behind them. -/
def added (payload : Payload) (headers : Headers) : List (Bytes × Bytes) :=
  match payload.contentType? with
  | none => []
  | some contentType =>
    headers.lacking "content-type" contentType ++
      headers.lacking "content-length" (toString payload.bytes.length)

/-- What a response of a code has of a payload. -/
def under (payload : Payload) (code : Nat) : Payload :=
  if code = 204 ∨ code = 205 ∨ code = 304 then .empty else payload

end Payload

namespace Response

/-- The responses that constructors return, each with the code that was asked for and the payload
that was given, and the same responses after changes of their headers. -/
inductive Made : Nat → Payload → Response → Prop
  | general {options : ResponseOptions} {response : Response} :
    general options = .ok response →
      Made (options.status.getD 200) (.document (options.content.getD .emptyObject)) response
  | ofStatus {status : Status} {options : ResponseOptions} {response : Response} :
    ofStatus status options = .ok response →
      Made status.code (.document (options.content.getD .emptyObject)) response
  | ok (content : Document) : Made 200 (.document content) (ok content)
  | created (content : Document) : Made 201 (.document content) (created content)
  | noContent : Made 204 .empty noContent
  | redirect {status : Status} {location : String} {options : ResponseOptions}
      {response : Response} :
    redirect status location options = .ok response →
      Made status.code (.document (options.content.getD .emptyObject)) response
  | found {location : String} {response : Response} :
    found location = .ok response → Made 302 (.document .emptyObject) response
  | methodNotAllowed {method : String} {allowed : List String} {options : ResponseOptions}
      {response : Response} :
    methodNotAllowed method allowed options = .ok response →
      Made 405 (.document (options.content.getD .emptyObject)) response
  | unavailableForLegalReasons {link : String} {options : ResponseOptions} {response : Response} :
    unavailableForLegalReasons link options = .ok response →
      Made 451 (.document (options.content.getD .emptyObject)) response
  | error {kind message : String} {options : ErrorOptions} {response : Response} :
    error kind message options = .ok response →
      Made (options.status.getD 500)
        (.document (errorDocument options.content kind message options.reason)) response
  | errorStatus (status : Status) (kind message : String) :
    Made status.code (.document (errorDocument ∅ kind message none))
      (errorStatus status kind message)
  | raw {data : Bytes} {headers : Headers} {status : Option Nat} {response : Response} :
    raw data headers status = .ok response → Made (status.getD 200) (.raw data) response
  | edited {code : Nat} {payload : Payload} {response : Response} (edits : List Headers.Edit) :
    Made code payload response →
      Made code payload { response with headers := response.headers.editEach edits }

/-! ### What constructors return -/

variable {response : Response}

/-- A response has a code and what that leaves of a payload. -/
structure Carries (response : Response) (code : Nat) (payload : Payload) : Prop where
  status : response.status.val = code
  payload : response.payload = payload.under code

theorem carries_build (status : StatusCode) (content : Option Document) (headers : Headers) :
    (build status content headers).Carries status.val (.document (content.getD .emptyObject)) where
  status := rfl
  payload := by simp only [build, Payload.under, emptyBodyCode_iff]

theorem val_chooseStatus {asked : Option Nat} {default : Status} {status : StatusCode}
    (h : chooseStatus asked default = .ok status) : status.val = asked.getD default.code := by
  cases asked with
  | none =>
    cases h
    rfl
  | some code =>
    simp only [chooseStatus, StatusCode.ofNat?] at h
    by_cases hcode : 100 ≤ code ∧ code ≤ 599
    · rw [dif_pos hcode] at h
      cases h
      rfl
    · rw [dif_neg hcode] at h
      cases h

theorem carries_general {options : ResponseOptions} (h : general options = .ok response) :
    response.Carries (options.status.getD 200)
      (.document (options.content.getD .emptyObject)) := by
  unfold general at h
  cases hstatus : chooseStatus options.status .ok with
  | error => rw [hstatus] at h; cases h
  | ok status =>
    rw [hstatus] at h
    cases h
    exact val_chooseStatus hstatus ▸ carries_build status options.content options.headers

theorem carries_fixed {status : Status} {options : ResponseOptions}
    (h : fixed status options = .ok response) :
    response.Carries status.code (.document (options.content.getD .emptyObject)) := by
  unfold fixed at h
  split at h
  · cases h
  · cases h
    exact carries_build status.statusCode options.content options.headers

/-- A derived header changes neither the code nor the payload. -/
theorem carries_withDetail {status : Status} {options : ResponseOptions} {name value : String}
    {detail : Detail}
    (h : (do return (← fixed status options).withDetail name value detail) = .ok response) :
    response.Carries status.code (.document (options.content.getD .emptyObject)) := by
  cases hfixed : fixed status options with
  | error => rw [hfixed] at h; cases h
  | ok plain =>
    rw [hfixed] at h
    cases h
    exact ⟨(carries_fixed hfixed).status, (carries_fixed hfixed).payload⟩

theorem carries_ofStatus {status : Status} {options : ResponseOptions}
    (h : ofStatus status options = .ok response) :
    response.Carries status.code (.document (options.content.getD .emptyObject)) := by
  unfold ofStatus at h
  split at h
  · cases h
  · cases h
  · cases h
  · exact carries_fixed h
  · exact carries_fixed h

theorem carries_redirect {status : Status} {location : String} {options : ResponseOptions}
    (h : redirect status location options = .ok response) :
    response.Carries status.code (.document (options.content.getD .emptyObject)) := by
  unfold redirect at h
  split at h
  · cases h
  · split at h
    · cases h
    · exact carries_withDetail h

theorem carries_raw {data : Bytes} {headers : Headers} {status : Option Nat}
    (h : raw data headers status = .ok response) :
    response.Carries (status.getD 200) (.raw data) := by
  unfold raw at h
  cases hstatus : chooseStatus status .ok with
  | error => rw [hstatus] at h; cases h
  | ok code =>
    rw [hstatus] at h
    cases h
    exact ⟨val_chooseStatus hstatus, by
      rw [← show code.val = status.getD 200 from val_chooseStatus hstatus]
      simp only [Payload.under, emptyBodyCode_iff]⟩

theorem Made.carries {code : Nat} {payload : Payload} (h : Made code payload response) :
    response.Carries code payload := by
  induction h with
  | general h => exact carries_general h
  | ofStatus h => exact carries_ofStatus h
  | ok content => exact carries_build _ (some content) _
  | created content => exact carries_build _ (some content) _
  | noContent => exact ⟨rfl, rfl⟩
  | redirect h => exact carries_redirect h
  | @found location response h =>
    exact carries_redirect (show Response.redirect .found location {} = .ok response from h)
  | @methodNotAllowed _ _ options response h =>
    have hcarries : response.Carries Status.methodNotAllowed.code _ := carries_withDetail h
    exact hcarries
  | @unavailableForLegalReasons _ options response h =>
    have hcarries : response.Carries Status.unavailableForLegalReasons.code _ :=
      carries_withDetail h
    exact hcarries
  | error h => exact carries_general h
  | errorStatus status kind message => exact carries_build status.statusCode (some _) ∅
  | raw h => exact carries_raw h
  | edited edits _ ih => exact ⟨ih.status, ih.payload⟩

/-- What is given for a code that leaves room for a body is one. -/
theorem Made.under_eq_empty_iff {code : Nat} {payload : Payload} (h : Made code payload response) :
    payload.under code = .empty ↔ code = 204 ∨ code = 205 ∨ code = 304 := by
  -- An empty payload has to come from the code alone: only `noContent` is given none.
  have hgiven : payload = .empty → code = 204 := by
    induction h with
    | noContent => exact fun _ => rfl
    | edited _ _ ih => exact ih
    | _ => exact nofun
  unfold Payload.under
  split
  next hcode => exact iff_of_true rfl hcode
  next hcode => exact iff_of_false (fun hempty => hcode (.inl (hgiven hempty))) hcode

/-! ### What is sent -/

theorem body_eq (response : Response) : response.body = response.payload.bytes := by
  unfold body
  cases response.payload <;> rfl

theorem wire_sentHeaders (response : Response) :
    response.sentHeaders.wire =
      response.headers.wire ++ response.payload.added response.headers := by
  have htype : response.defaultContentType? = response.payload.contentType? := by
    unfold defaultContentType?
    cases response.payload <;> rfl
  simp only [sentHeaders, htype, Payload.added, body_eq]
  cases response.payload.contentType? with
  | none => exact (List.append_nil _).symm
  | some contentType =>
    dsimp only
    rw [Headers.wire_contentLength, Headers.wire_contentType, List.append_assoc]

theorem send_eq (response : Response) (patience : Patience) (line : Line) :
    let start := line.send patience response.startFrame
    response.send patience line =
      if start.1 = .done () then start.2.send patience (.body response.body false) else start := by
  simp only [Response.send]
  rcases line.send patience response.startFrame with ⟨outcome, line⟩
  cases outcome <;> rfl

/-- A line that refuses nothing takes the whole response. -/
theorem send_done (response : Response) {line : Line}
    (haccepts : ∀ n, (line.reception n).refusal = none) :
    (response.send .untilDone line).1 = .done () := by
  simp only [send_eq, line.send_done response.startFrame (haccepts _), ↓reduceIte]
  exact Line.send_done _ _ (by simpa using haccepts _)

/-- A response that was sent is two frames. -/
theorem frames_send {patience : Patience} {line : Line}
    (hdone : (response.send patience line).1 = .done ()) :
    (response.send patience line).2.frames =
      line.frames ++ [response.startFrame, .body response.body false] := by
  have hstart := line.frames_send patience response.startFrame
  simp only [send_eq] at hdone ⊢
  split at hdone
  next hfirst =>
    rw [if_pos hfirst] at hstart ⊢
    rw [Line.frames_send, if_pos hdone, hstart, List.append_assoc]
    rfl
  next hfirst => exact absurd hdone hfirst

/-- Without its start frame nothing of a response is attempted. -/
theorem send_of_start_ne_done {patience : Patience} {line : Line}
    (h : (line.send patience response.startFrame).1 ≠ .done ()) :
    response.send patience line = line.send patience response.startFrame := by
  rw [send_eq]
  exact if_neg h

/-- Every response that a constructor returns has the code it was asked for, which is one of three
digits and begins with at most five, and the payload it was given, or none under a code that leaves
no room for one. It is sent as its start frame and one final piece, and nothing follows a start
frame that was not accepted. -/
theorem made_sends {code : Nat} {payload : Payload} (h : Made code payload response) :
    let bodiless := code = 204 ∨ code = 205 ∨ code = 304
    let sent := if bodiless then .empty else payload
    let start := Frame.start code (response.headers.wire ++ sent.added response.headers)
    (response.status.val = code ∧ 100 ≤ code ∧ code ≤ 599) ∧
      (response.payload = sent ∧ (response.payload = .empty ↔ bodiless)) ∧
      ∀ (patience : Patience) (line : Line),
        let sending := response.send patience line
        (sending.1 = .done () →
          sending.2.frames = line.frames ++ [start, .body sent.bytes false]) ∧
        (patience = .untilDone → (∀ n, (line.reception n).refusal = none) →
          sending.1 = .done ()) ∧
        ((line.send patience start).1 ≠ .done () →
          sending.1 = (line.send patience start).1 ∧ sending.2.frames = line.frames ∧
            sending.2.offered = line.offered + 1) := by
  intro bodiless sent start
  obtain ⟨hstatus, hpayload⟩ := h.carries
  have hstart : response.startFrame = start := by
    rw [startFrame, hstatus, wire_sentHeaders, hpayload]
    rfl
  have hbody : response.body = sent.bytes := by
    rw [body_eq, hpayload]
    rfl
  refine ⟨⟨hstatus, hstatus ▸ response.status.inRange⟩,
    ⟨hpayload, hpayload ▸ h.under_eq_empty_iff⟩, fun patience line => ?_⟩
  refine ⟨fun hdone => ?_, ?_, fun hrefused => ?_⟩
  · rw [frames_send hdone, hstart, hbody]
  · rintro rfl haccepts
    exact response.send_done haccepts
  · have hsent := line.frames_send patience start
    rw [if_neg hrefused, List.append_nil] at hsent
    rw [send_of_start_ne_done (hstart ▸ hrefused), hstart]
    exact ⟨rfl, hsent, line.offered_send patience start⟩

/-- A document of one letter and four bytes, beside a content type in other letters; a line takes
both frames of it, and one that refuses the first is not offered the second. -/
theorem made_sends_own_type :
    let response := { created (.string "é") with
      headers := Headers.editEach ∅ [.append "CONTENT-type" "text/x"] }
    let refusing : Line := .fresh fun n => ⟨false, if n = 0 then some "gone" else none⟩
    Made 201 (.document (.string "é")) response ∧
      (response.send .untilDone .recorder).2.frames =
        [.start 201 [(.ofString "content-type", .ofString "text/x"),
          (.ofString "content-length", .ofString "4")], .body (.ofString "\"é\"") false] ∧
      (response.send .untilDone refusing).2.frames = [] ∧
      (response.send .untilDone refusing).2.offered = 1 := by
  intro response refusing
  have hmade : Made 201 (.document (.string "é")) response := .edited _ (.created _)
  obtain ⟨_, _, hsent⟩ := made_sends hmade
  obtain ⟨hframes, hdone, _⟩ := hsent .untilDone .recorder
  obtain ⟨_, _, hrefused⟩ := hsent .untilDone refusing
  obtain ⟨_, hnone, hoffered⟩ := hrefused (by decide)
  refine ⟨hmade, ?_, hnone, hoffered⟩
  rw [hframes (hdone rfl fun _ => rfl)]
  decide +kernel

end Response

end DocumentServer
