import DocumentServer.Proofs.KeyMap
import DocumentServer.Proofs.Response.Sending

/-! Responses that explain an error. Their document is the object that was given, with the error and
its reason on top: members of the same names give way, and all others stay as they are. Such a
response is refused for its code only, so a well-known status always makes one. -/
namespace DocumentServer.Response

/-- Members are those of `content` with an error on top, and with its reason if there is one. -/
structure Explains (content : KeyMap Document) (kind message : String)
    (reason : Option ErrorReason) (members : KeyMap Document) : Prop where
  told : members.get? "error" =
    some (.object [("message", .string message), ("type", .string kind)])
  named : ∀ cause ∈ reason, members.get? "reason" = some (.string cause.name)
  detailed : ∀ cause ∈ reason,
    members.get? "details" = some (cause.details.elim .null .string)
  others : ∀ name, name ≠ "error" → (reason.isSome → name ≠ "reason" ∧ name ≠ "details") →
    members.get? name = content.get? name

/-- The member that tells the error. -/
theorem ofMembers_error (kind message : String) :
    Document.ofMembers [("type", .string kind), ("message", .string message)] =
      .object [("message", .string message), ("type", .string kind)] := by
  have hless : "message" < "type" := by decide
  show Document.object (KeyMap.insertEntry "message" _ [("type", _)]) = _
  rw [KeyMap.insertEntry, if_pos hless]

theorem explains_errorDocument (content : KeyMap Document) (kind message : String)
    (reason : Option ErrorReason) :
    ∃ members : KeyMap Document,
      errorDocument content kind message reason = .object members.entries ∧
        Explains content kind message reason members := by
  have hreason : "error" ≠ "reason" := by decide
  have hdetails : "error" ≠ "details" := by decide
  have hapart : "reason" ≠ "details" := by decide
  unfold errorDocument
  rw [ofMembers_error]
  cases reason with
  | none =>
    refine ⟨_, rfl, ?_, nofun, nofun, fun name hname _ => ?_⟩
    · rw [KeyMap.get?_insert, if_pos rfl]
    · rw [KeyMap.get?_insert, if_neg hname]
  | some cause =>
    refine ⟨_, rfl, ?_, ?_, ?_, fun name hname hothers => ?_⟩
    · rw [KeyMap.get?_insert, if_neg hdetails, KeyMap.get?_insert, if_neg hreason,
        KeyMap.get?_insert, if_pos rfl]
    · rintro _ ⟨⟩
      rw [KeyMap.get?_insert, if_neg hapart, KeyMap.get?_insert, if_pos rfl]
    · rintro _ ⟨⟩
      rw [KeyMap.get?_insert, if_pos rfl]
    · obtain ⟨hname', hname''⟩ := hothers rfl
      rw [KeyMap.get?_insert, if_neg hname'', KeyMap.get?_insert, if_neg hname',
        KeyMap.get?_insert, if_neg hname]

/-- A code that is asked for is refused exactly if it is out of range. -/
theorem chooseStatus_some (code : Nat) (default : Status) :
    chooseStatus (some code) default =
      if h : 100 ≤ code ∧ code ≤ 599 then .ok ⟨code, h⟩ else .error (.statusOutOfRange code) := by
  rw [chooseStatus, StatusCode.ofNat?]
  by_cases h : 100 ≤ code ∧ code ≤ 599
  · rw [dif_pos h, dif_pos h]
  · rw [dif_neg h, dif_neg h]

theorem error_eq (kind message : String) (options : ErrorOptions) :
    let code := options.status.getD 500
    let document := errorDocument options.content kind message options.reason
    error kind message options =
      if h : 100 ≤ code ∧ code ≤ 599 then .ok (build ⟨code, h⟩ (some document) options.headers)
      else .error (.statusOutOfRange code) := by
  intro code document
  show (chooseStatus (some code) .ok).bind (fun status =>
    .ok (build status (some document) options.headers)) = _
  rw [chooseStatus_some]
  by_cases h : 100 ≤ code ∧ code ≤ 599
  · rw [dif_pos h, dif_pos h]
    rfl
  · rw [dif_neg h, dif_neg h]
    rfl

/-- A response that explains an error is built exactly if its code, which is 500 unless one is
given, is in range. It has the headers that were given and, unless its code leaves no room for a
body, a document whose members are those that were given with the error and its reason on top. For
a well-known status it is the one that can not fail. -/
theorem error_explains (kind message : String) (options : ErrorOptions) :
    let code := options.status.getD 500
    (100 ≤ code ∧ code ≤ 599 → ∃ (response : Response) (members : KeyMap Document),
      error kind message options = .ok response ∧
        response.status.val = code ∧ response.headers = options.headers ∧
        response.detail = .none ∧
        response.payload = (Payload.document (.object members.entries)).under code ∧
        Explains options.content kind message options.reason members) ∧
      (¬ (100 ≤ code ∧ code ≤ 599) → error kind message options =
        .error (.invalidArgument s!"status code {code} is outside 100..=599")) ∧
      ∀ status : Status, error kind message { status := some status.code } =
        .ok (errorStatus status kind message) := by
  intro code
  refine ⟨fun hcode => ?_, fun hcode => ?_, fun status => ?_⟩
  · obtain ⟨members, hdocument, hmembers⟩ :=
      explains_errorDocument options.content kind message options.reason
    have hcarries := carries_build ⟨code, hcode⟩
      (some (errorDocument options.content kind message options.reason)) options.headers
    refine ⟨_, members, (error_eq kind message options).trans (dif_pos hcode), rfl, rfl, rfl, ?_,
      hmembers⟩
    rw [← hdocument]
    exact hcarries.payload
  · exact (error_eq kind message options).trans (dif_neg hcode)
  · exact (error_eq kind message _).trans (dif_pos status.code_inRange)

example :
    let given : KeyMap Document := .ofList [("details", .bool true), ("error", .null)]
    let response := error "Forbidden" "full" { content := given, reason := some ⟨"quota", none⟩ }
    response.toOption.map (·.body) =
      some (.ofString ("\x7b\"details\":null,\"error\":\x7b\"message\":\"full\"," ++
        "\"type\":\"Forbidden\"\x7d,\"reason\":\"quota\"\x7d")) := by
  decide +kernel

end DocumentServer.Response
