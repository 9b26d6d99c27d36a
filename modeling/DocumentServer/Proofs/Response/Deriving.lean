import DocumentServer.Proofs.Http.Multimap
import DocumentServer.Proofs.Response.Sending

/-! Headers that responses derive. A redirect, a refused method and a legal block come with a header
that their detail determines. It takes the place of all headers of its name that the caller gave, in
whatever letters, and stands behind the others, which stay as they are; so the start frame carries
one header of that name, and it says what the detail says. -/
namespace DocumentServer

def Detail.header? : Detail → Option Header
  | none => Option.none
  | redirect location => some ⟨"Location", location⟩
  | methodNotAllowed _ allowed => some ⟨"Allow", ",".intercalate allowed⟩
  | legalBlock link => some ⟨"Link", "<" ++ link ++ ">; rel=\"blocked-by\""⟩

namespace Headers

/-- An inserted header stands behind those of other names. -/
theorem entries_insert (headers : Headers) (name value : String) :
    (headers.insert name value).entries = headers.others name ++ [⟨name, value⟩] := rfl

/-- On the wire an inserted header is the only one of its name. -/
theorem filter_wire_insert (headers : Headers) (name value : String) :
    (headers.insert name value).wire.filter (·.1 = wireName name) =
      [(wireName name, .ofString value)] := by
  rw [insert, wire_append, wire_erase, List.filter_append, List.filter_filter,
    List.filter_eq_nil_iff.2 (by simp)]
  simp

/-- What a start frame adds for other names does not show under a name. -/
theorem filter_lacking (headers : Headers) {name other : String} (h : other ≠ Ascii.lower name)
    (value : String) : (headers.lacking other value).filter (·.1 = wireName name) = [] := by
  rw [List.filter_eq_nil_iff]
  intro pair hpair
  unfold lacking at hpair
  split at hpair
  · cases hpair
  · obtain rfl := List.mem_singleton.1 hpair
    simpa using fun hname : Bytes.ofString other = wireName name => h (Bytes.ofString_inj hname)

end Headers

namespace Response

inductive Derivation where
  | redirect (status : Status) (location : String)
  | methodNotAllowed (method : String) (allowed : List String)
  | legalBlock (link : String)

namespace Derivation

def perform (options : ResponseOptions) : Derivation → Except ResponseError Response
  | redirect status location => Response.redirect status location options
  | methodNotAllowed method allowed => Response.methodNotAllowed method allowed options
  | legalBlock link => Response.unavailableForLegalReasons link options

def status : Derivation → Status
  | redirect status _ => status
  | methodNotAllowed .. => .methodNotAllowed
  | legalBlock _ => .unavailableForLegalReasons

def detail : Derivation → Detail
  | redirect _ location => .redirect location
  | methodNotAllowed method allowed =>
    .methodNotAllowed (Ascii.upper method) (normalizeMethods allowed)
  | legalBlock link => .legalBlock link

/-- What a call asks for makes sense: a redirect has a status of its kind and goes somewhere. -/
def Sensible : Derivation → Prop
  | redirect status location =>
    status.code ∈ [300, 301, 302, 303, 305, 307, 308] ∧ location ≠ ""
  | _ => True

end Derivation

/-- Seven statuses are those of redirects. -/
theorem shape_redirect_iff (status : Status) :
    status.shape = .redirect ↔ status.code ∈ [300, 301, 302, 303, 305, 307, 308] := by
  cases status <;> decide

/-! ### Building -/

variable {options : ResponseOptions} {response : Response}

/-- A response with a derived header is built unless a status is given. -/
theorem fixed_withDetail_eq_ok_iff {status : Status} {name value : String} {detail : Detail} :
    (do return (← fixed status options).withDetail name value detail) = .ok response ↔
      options.status = none ∧
        (build status.statusCode options.content options.headers).withDetail name value detail =
          response := by
  unfold fixed
  cases options.status with
  | none => simp [bind, Except.bind, pure, Except.pure]
  | some code => simp [bind, Except.bind]

theorem redirect_eq_ok_iff {status : Status} {location : String} :
    redirect status location options = .ok response ↔
      (status.shape = .redirect ∧ location ≠ "") ∧ options.status = none ∧
        (build status.statusCode options.content options.headers).withDetail "Location" location
          (.redirect location) = response := by
  rw [← fixed_withDetail_eq_ok_iff, redirect]
  by_cases hshape : status.shape = .redirect
  · by_cases hlocation : location = ""
    · simp [hshape, hlocation]
    · simp [hshape, hlocation]
  · simp [hshape]

/-- A call succeeds if it makes sense and no status is given besides; what it builds has the header
that the detail determines. -/
theorem Derivation.perform_eq_ok_iff {call : Derivation} :
    call.perform options = .ok response ↔
      (call.Sensible ∧ options.status = none) ∧ ∃ header, call.detail.header? = some header ∧
        (build call.status.statusCode options.content options.headers).withDetail header.name
          header.value call.detail = response := by
  cases call with
  | redirect status location =>
    have hsensible : (Derivation.redirect status location).Sensible ↔
        status.shape = .redirect ∧ location ≠ "" := by
      rw [shape_redirect_iff]
      rfl
    rw [Derivation.perform, redirect_eq_ok_iff, hsensible]
    simp [Derivation.detail, Derivation.status, Detail.header?, and_assoc]
  | methodNotAllowed method allowed =>
    refine fixed_withDetail_eq_ok_iff.trans ?_
    simp [Derivation.Sensible, Derivation.detail, Derivation.status, Detail.header?]
  | legalBlock link =>
    refine fixed_withDetail_eq_ok_iff.trans ?_
    simp [Derivation.Sensible, Derivation.detail, Derivation.status, Detail.header?]

/-! ### Sending -/

/-- A line carries as much of a response as it accepts, the start frame first. -/
theorem frames_send_prefix (response : Response) (patience : Patience) (line : Line) :
    ∃ sent, (response.send patience line).2.frames = line.frames ++ sent ∧
      sent <+: [response.startFrame, .body response.body false] ∧
      (response.startFrame ∈ sent ↔ (line.send patience response.startFrame).1 = .done ()) := by
  have hstart := line.frames_send patience response.startFrame
  rw [send_eq]
  split
  next hfirst =>
    rw [if_pos hfirst] at hstart
    rw [Line.frames_send, hstart, List.append_assoc]
    refine ⟨_, rfl, ?_, by simp [hfirst]⟩
    split
    · exact List.prefix_rfl
    · exact List.prefix_append _ _
  next hfirst =>
    rw [if_neg hfirst] at hstart
    exact ⟨[], hstart, List.nil_prefix, by simp [hfirst]⟩

/-- A header of another name than those that a payload adds is the same on the wire with them. -/
theorem filter_wire_sentHeaders (response : Response) {name : String}
    (htype : Ascii.lower name ≠ "content-type") (hlength : Ascii.lower name ≠ "content-length") :
    response.sentHeaders.wire.filter (·.1 = Headers.wireName name) =
      response.headers.wire.filter (·.1 = Headers.wireName name) := by
  have hadded : (response.payload.added response.headers).filter
      (·.1 = Headers.wireName name) = [] := by
    unfold Payload.added
    split
    · rfl
    · rw [List.filter_append, Headers.filter_lacking _ htype.symm,
        Headers.filter_lacking _ hlength.symm, List.append_nil]
  rw [wire_sentHeaders, List.filter_append, hadded, List.append_nil]

/-- No derived header is one that a payload adds. -/
theorem lower_of_header? {detail : Detail} {header : Header} (h : detail.header? = some header) :
    Ascii.lower header.name ≠ "content-type" ∧ Ascii.lower header.name ≠ "content-length" := by
  have hlocation : Ascii.lower "Location" = "location" := by decide +kernel
  have hallow : Ascii.lower "Allow" = "allow" := by decide +kernel
  have hlink : Ascii.lower "Link" = "link" := by decide +kernel
  cases detail with
  | none => cases h
  | redirect location =>
    cases h
    rw [hlocation]
    decide
  | methodNotAllowed method allowed =>
    cases h
    rw [hallow]
    decide
  | legalBlock link =>
    cases h
    rw [hlink]
    decide

/-- A call that derives a header succeeds exactly if it makes sense and no status is given besides
it. The response has the detail of the call, and the header that this determines stands behind the
headers of other names that were given, in place of all that were given under its name. It is also
the only one of its name in the start frame, which is all that a line carries in front of the body.
A redirect, and nothing else, has a location, which is the one in its detail. -/
theorem derived_header_stands (call : Derivation) (options : ResponseOptions) :
    ((∃ response, call.perform options = .ok response) ↔
      call.Sensible ∧ options.status = none) ∧
    ∀ response, call.perform options = .ok response →
      ∃ (header : Header) (pairs : List (Bytes × Bytes)),
        response.detail = call.detail ∧ response.detail.header? = some header ∧
        (∀ location, response.location? = some location ↔
          response.detail = .redirect location) ∧
        response.headers.entries = options.headers.others header.name ++ [header] ∧
        pairs.filter (·.1 = .ofString (Ascii.lower header.name)) =
          [(.ofString (Ascii.lower header.name), .ofString header.value)] ∧
        ∀ (patience : Patience) (line : Line),
          let start := Frame.start call.status.code pairs
          ∃ sent, (response.send patience line).2.frames = line.frames ++ sent ∧
            sent <+: [start, .body response.body false] ∧
            (start ∈ sent ↔ (line.send patience start).1 = .done ()) := by
  constructor
  · constructor
    · rintro ⟨response, hperform⟩
      exact (Derivation.perform_eq_ok_iff.1 hperform).1
    · intro hfits
      have hheader : ∃ header, call.detail.header? = some header := by
        cases call <;> exact ⟨_, rfl⟩
      obtain ⟨header, hheader⟩ := hheader
      exact ⟨_, Derivation.perform_eq_ok_iff.2 ⟨hfits, header, hheader, rfl⟩⟩
  · intro response hperform
    obtain ⟨-, header, hheader, rfl⟩ := Derivation.perform_eq_ok_iff.1 hperform
    obtain ⟨htype, hlength⟩ := lower_of_header? hheader
    refine ⟨header, _, rfl, hheader, fun location => ?_,
      Headers.entries_insert _ _ _, ?_, fun patience line => frames_send_prefix _ patience line⟩
    · cases call <;> simp [location?, withDetail, Derivation.detail]
    · exact (filter_wire_sentHeaders _ htype hlength).trans
        (Headers.filter_wire_insert options.headers header.name header.value)

example :
    let given := ((∅ : Headers).append "LOCATION" "/a").append "Vary" "*"
    ((redirect .found "/b" { headers := given }).toOption.map (·.headers.entries)) =
      some [⟨"Vary", "*"⟩, ⟨"Location", "/b"⟩] := by
  decide +kernel

end Response

end DocumentServer
