import DocumentServer.Gateway.Handlers
import DocumentServer.Proofs.Bytes
import DocumentServer.Proofs.Stream.Recording

/-! Item streams on their lines. Every entry becomes one chunk, a document with a line feed behind
it. A line that refuses nothing carries all entries in their order and one final piece behind them;
any other line carries a beginning of that. -/
namespace DocumentServer

open DocumentServer.Frame (answer answer_append_more answer_append_last)

namespace Lines

structure SameBut (i : Nat) (lines lines' : Lines) : Prop where
  others : ∀ j, j ≠ i → lines' j = lines j
  reception : (lines' i).reception = (lines i).reception

variable {i : Nat} {lines lines' lines'' : Lines}

theorem SameBut.refl (i : Nat) (lines : Lines) : SameBut i lines lines := ⟨fun _ _ => rfl, rfl⟩

theorem SameBut.trans (h : SameBut i lines lines') (h' : SameBut i lines' lines'') :
    SameBut i lines lines'' :=
  ⟨fun j hj => (h'.others j hj).trans (h.others j hj), h'.reception.trans h.reception⟩

theorem sameBut_set {line : Line} (h : line.reception = (lines i).reception) :
    SameBut i lines (lines.set i line) :=
  ⟨fun _ hj => set_of_ne _ _ hj, by rw [set_self, h]⟩

end Lines

namespace Stream

/-- The stream was started on the line of a request, which then carried `before`, and its body is
`chunks` so far. -/
structure Underway (request : Request) (before : List Frame) (status : Nat)
    (headers : List (Bytes × Bytes)) (chunks : List Bytes) (stream : Stream) (lines : Lines) :
    Prop where
  writer : ∃ writer : Writer, stream.phase = .prepared request writer ∧ writer.Idle ∧
    writer.ended = false
  frames : (lines request.line).frames = before ++ answer status headers chunks none

variable {request : Request} {before : List Frame} {status : Nat} {headers : List (Bytes × Bytes)}
  {chunks : List Bytes} {stream : Stream} {lines : Lines}

/-- Writing to a stream that is underway adds the chunk if its line takes it. -/
theorem Underway.write (h : Underway request before status headers chunks stream lines)
    (data : Bytes) :
    let after := stream.write .untilDone data lines
    lines.SameBut request.line after.2.2 ∧
      Underway request before status headers
        (chunks ++ if after.1 = .done () then [data] else []) after.2.1 after.2.2 ∧
      ((∀ n, ((lines request.line).reception n).refusal = none) → after.1 = .done ()) := by
  obtain ⟨⟨writer, hphase, hidle, hopen⟩, hframes⟩ := h
  obtain ⟨hidle', hopen', hframes'⟩ := hidle.noted_write .untilDone data hframes hopen
  have hwrite := hidle.write .untilDone data (lines request.line) hopen
  have hreception : (writer.write .untilDone data (lines request.line)).2.2.reception =
      (lines request.line).reception := by
    rw [hwrite]
    exact Line.reception_send ..
  have hlast (outcome : Outcome Unit) :
      (none : Option Bytes).or
        (if outcome = .done () then (Writer.Call.write data).last? else none) = none := by
    simp [Writer.Call.last?]
  rw [hlast] at hopen' hframes'
  simp only [Stream.write, hphase]
  refine ⟨Lines.sameBut_set hreception, ⟨⟨_, rfl, hidle', hopen'⟩, ?_⟩, fun haccepts => ?_⟩
  · rw [Lines.set_self]
    exact hframes'
  · rw [hwrite]
    exact Line.send_done _ _ (haccepts _)

/-- Ending a stream that is underway adds the final piece if its line takes it. -/
theorem Underway.writeEnd (h : Underway request before status headers chunks stream lines)
    (data : Bytes) :
    let after := stream.writeEnd .untilDone data lines
    lines.SameBut request.line after.2.2 ∧
      (after.2.2 request.line).frames =
        before ++ answer status headers chunks (if after.1 = .done () then some data else none) ∧
      ((∀ n, ((lines request.line).reception n).refusal = none) →
        ∃ length, after.1 = .done () ∧ after.2.1.phase = .closed length) := by
  obtain ⟨⟨writer, hphase, hidle, hopen⟩, hframes⟩ := h
  have hreception := (lines request.line).reception_send .untilDone (.body data false)
  have hsent := (lines request.line).frames_send .untilDone (.body data false)
  have haccepted := fun h => (lines request.line).send_done (.body data false) h
  simp only [Stream.writeEnd, hphase, hidle.writeEnd .untilDone data (lines request.line) hopen]
  rcases hsend : (lines request.line).send .untilDone (.body data false) with ⟨outcome, line⟩
  rw [hsend] at hreception hsent haccepted
  have hsame : lines.SameBut request.line (lines.set request.line line) :=
    Lines.sameBut_set hreception
  rw [hframes, List.append_assoc] at hsent
  cases outcome with
  | done =>
    rw [if_pos rfl, answer_append_last] at hsent
    exact ⟨hsame, by simpa using hsent, fun _ => ⟨_, rfl, rfl⟩⟩
  | failed error =>
    exact ⟨hsame, by simpa using hsent, fun haccepts => nomatch haccepted (haccepts _)⟩
  | cancelled =>
    exact ⟨hsame, by simpa using hsent, fun haccepts => nomatch haccepted (haccepts _)⟩

/-- A stream that starts is underway, unless its line refuses the start frame. -/
theorem underway_start (stream : Stream) (request : Request) (lines : Lines) :
    let after := stream.start .untilDone request lines
    lines.SameBut request.line after.2.2 ∧
      (after.1 = .done () → Underway request (lines request.line).frames stream.status.val
        stream.startHeaders.wire [] after.2.1 after.2.2) ∧
      (after.1 ≠ .done () → (after.2.2 request.line).frames = (lines request.line).frames) ∧
      ((∀ n, ((lines request.line).reception n).refusal = none) → after.1 = .done ()) := by
  have hstart := stream.start_eq .untilDone request lines
  have hsent := (lines request.line).frames_send .untilDone
    (.start (stream.readied request).status.val (stream.readied request).headers.wire)
  simp only at hstart
  rw [hstart]
  refine ⟨Lines.sameBut_set (Line.reception_send ..), fun hdone => ?_, fun hrefused => ?_,
    fun haccepts => Line.send_done _ _ (haccepts _)⟩
  · dsimp only at hdone
    rw [if_pos hdone] at hsent ⊢
    refine ⟨⟨.fresh, rfl, Writer.idle_fresh, rfl⟩, ?_⟩
    dsimp only
    rw [Lines.set_self, hsent]
    rfl
  · dsimp only at hrefused
    rw [if_neg hrefused, List.append_nil] at hsent
    dsimp only
    rw [Lines.set_self, hsent]

end Stream

namespace Handlers

def entryLine (entry : String × Document) : Bytes :=
  (Document.ofMembers [("key", .string entry.1), ("value", entry.2)]).encode ++ [10]

theorem itemLine_ok (entry : String × Document) : itemLine (.ok entry) = entryLine entry := by
  rw [itemLine, Bytes.ofString_eq, String.toList_push, Bytes.ofChars_append, ← Bytes.ofString_eq]
  rfl

theorem ofMembers_entry (key : String) (value : Document) :
    Document.ofMembers [("key", .string key), ("value", value)] =
      .object [("key", .string key), ("value", value)] := by
  have hless : ¬ "value" < "key" := by decide
  have hless' : "key" < "value" := by decide
  show Document.object (KeyMap.insertEntry "value" value [("key", .string key)]) = _
  simp [KeyMap.insertEntry, hless, hless']

/-- Only the document in the place of an error has a member `error`, whatever the names and the
documents of the entries are. -/
theorem member?_error_itemDocument (item : StoreItem) :
    ((itemDocument item).member? "error").isSome = !item.isOk := by
  cases item with
  | ok entry =>
    rw [itemDocument, ofMembers_entry]
    rfl
  | error error => rfl

theorem member?_error_ok (entry : String × Document) :
    ((itemDocument (.ok entry)).member? "error").isSome = false :=
  member?_error_itemDocument (.ok entry)

/-- The next item is written, and the others only behind an entry that was. -/
theorem writeItems_cons (item : StoreItem) (items : List StoreItem) (stream : Stream)
    (lines : Lines) :
    let after := stream.write .untilDone (itemLine item) lines
    writeItems (item :: items) stream lines =
      if after.1 = .done () ∧ item.isOk then writeItems items after.2.1 after.2.2
      else after.2 := by
  rw [writeItems, member?_error_itemDocument]
  rcases stream.write .untilDone (itemLine item) lines with ⟨outcome, stream', lines'⟩
  cases outcome <;> cases item <;> simp [Except.isOk, Except.toBool]

variable {request : Request} {before : List Frame} {status : Nat} {headers : List (Bytes × Bytes)}

/-- Writing entries adds the lines of those at the beginning, and of all of them if no line is
refused. -/
theorem writeItems_spec {chunks : List Bytes} {stream : Stream} {lines : Lines}
    (h : Stream.Underway request before status headers chunks stream lines)
    (entries : List (String × Document)) :
    let after := writeItems (entries.map .ok) stream lines
    lines.SameBut request.line after.2 ∧
      ∃ listed, listed <+: entries ∧
        Stream.Underway request before status headers (chunks ++ listed.map entryLine) after.1
          after.2 ∧
        ((∀ n, ((lines request.line).reception n).refusal = none) → listed = entries) := by
  induction entries generalizing chunks stream lines with
  | nil => exact ⟨.refl _ _, [], List.nil_prefix, by simpa [writeItems] using h, fun _ => rfl⟩
  | cons entry entries ih =>
    obtain ⟨hsame, hwritten, haccepted⟩ := h.write (entryLine entry)
    simp only [List.map_cons, writeItems, itemLine_ok, member?_error_ok, Bool.false_eq_true,
      ↓reduceIte]
    rcases hwrite : stream.write .untilDone (entryLine entry) lines with ⟨outcome, after, lines'⟩
    rw [hwrite] at hsame hwritten haccepted
    have refused (houtcome : outcome ≠ .done ()) :
        ∃ listed, listed <+: entry :: entries ∧
          Stream.Underway request before status headers (chunks ++ listed.map entryLine) after
            lines' ∧
          ((∀ n, ((lines request.line).reception n).refusal = none) →
            listed = entry :: entries) := by
      rw [if_neg houtcome] at hwritten
      exact ⟨[], List.nil_prefix, hwritten, fun haccepts => absurd (haccepted haccepts) houtcome⟩
    cases outcome with
    | failed error => exact ⟨hsame, refused nofun⟩
    | cancelled => exact ⟨hsame, refused nofun⟩
    | done =>
      obtain ⟨hrest, listed, hprefix, hlisted, hall⟩ := ih hwritten
      refine ⟨hsame.trans hrest, entry :: listed, List.prefix_cons_inj entry |>.2 hprefix, ?_,
        fun haccepts => ?_⟩
      · simpa using hlisted
      · rw [hall fun n => hsame.reception ▸ haccepts n]

/-- The items that are written if nothing is refused: those up to the first error, with it. -/
def reported : List StoreItem → List StoreItem
  | [] => []
  | .ok entry :: rest => .ok entry :: reported rest
  | .error error :: _ => [.error error]

theorem reported_entries (entries : List (String × Document)) :
    reported (entries.map .ok) = entries.map .ok := by
  induction entries with
  | nil => rfl
  | cons entry rest ih => rw [List.map_cons, reported, ih]

theorem reported_failure (entries : List (String × Document)) (error : DbError)
    (behind : List StoreItem) :
    reported (entries.map .ok ++ .error error :: behind) = entries.map .ok ++ [.error error] := by
  induction entries with
  | nil => rfl
  | cons entry rest ih => rw [List.map_cons, List.cons_append, reported, ih, List.cons_append]

/-- A line that refuses nothing gets the lines of all items up to the first error. -/
theorem writeItems_accepted {chunks : List Bytes} {stream : Stream} {lines : Lines}
    (h : Stream.Underway request before status headers chunks stream lines)
    (haccepts : ∀ n, ((lines request.line).reception n).refusal = none)
    (items : List StoreItem) :
    let after := writeItems items stream lines
    lines.SameBut request.line after.2 ∧
      Stream.Underway request before status headers (chunks ++ (reported items).map itemLine)
        after.1 after.2 := by
  induction items generalizing chunks stream lines with
  | nil => exact ⟨.refl _ _, by simpa [writeItems, reported] using h⟩
  | cons item items ih =>
    obtain ⟨hsame, hwritten, haccepted⟩ := h.write (itemLine item)
    rcases hwrite : stream.write .untilDone (itemLine item) lines with ⟨outcome, after, lines'⟩
    rw [hwrite] at hsame hwritten haccepted
    obtain rfl : outcome = .done () := haccepted haccepts
    rw [if_pos rfl] at hwritten
    cases item with
    | error error =>
      simp only [writeItems, hwrite]
      exact ⟨hsame, hwritten⟩
    | ok entry =>
      obtain ⟨hrest, hreported⟩ := ih hwritten fun n => hsame.reception ▸ haccepts n
      simp only [writeItems, hwrite, member?_error_ok, Bool.false_eq_true, ↓reduceIte]
      refine ⟨hsame.trans hrest, ?_⟩
      simpa [reported] using hreported

/-- What the answer to a request for items tells of the entries of a database. -/
structure Lists (request : Request) (entries : List (String × Document)) (lines : Lines)
    (after : HandlerResult × Lines) : Prop where
  others : ∀ i, i ≠ request.line → after.2 i = lines i
  /-- The request's line carries no other chunks than lines of entries, in their order. -/
  begun : ∃ sent, (after.2 request.line).frames = (lines request.line).frames ++ sent ∧
    (sent = [] ∨ ∃ status headers listed last, listed <+: entries ∧
      sent = answer status headers (listed.map entryLine) last)
  /-- A line that refuses nothing carries all entries and the end of the stream. -/
  whole : request.hook = [] → (∀ n, ((lines request.line).reception n).refusal = none) →
    (∃ stream length, after.1 = .ok (.stream stream) ∧ stream.phase = .closed length) ∧
      (after.2 request.line).frames = (lines request.line).frames ++
        answer 200 [(.ofString "content-type", .ofString linesContentType)]
          (entries.map entryLine) (some [])

/-- Nothing is told when a stream does not start, which needs a hook or a refusal. -/
theorem lists_unstarted (entries : List (String × Document)) {lines lines' : Lines}
    (result : HandlerResult) (hsame : lines.SameBut request.line lines')
    (hframes : (lines' request.line).frames = (lines request.line).frames)
    (hcause : request.hook = [] → ¬ ∀ n, ((lines request.line).reception n).refusal = none) :
    Lists request entries lines (result, lines') :=
  ⟨hsame.others, ⟨[], by rw [hframes, List.append_nil], .inl rfl⟩,
    fun hhook haccepts => absurd haccepts (hcause hhook)⟩

/-- A stream that was started for a list of entries tells them. -/
theorem lists_started (entries : List (String × Document)) {lines lines' : Lines} {stream : Stream}
    (hsame : lines.SameBut request.line lines')
    (hstarted : Stream.Underway request (lines request.line).frames status headers [] stream lines')
    (hplain : request.hook = [] →
      status = 200 ∧ headers = [(.ofString "content-type", .ofString linesContentType)]) :
    let written := writeItems (entries.map .ok) stream lines'
    let ended := written.1.writeEnd .untilDone [] written.2
    Lists request entries lines (.ok (.stream ended.2.1), ended.2.2) := by
  obtain ⟨hwriting, listed, hprefix, hlisted, hall⟩ := writeItems_spec hstarted entries
  obtain ⟨hending, hframes, hclosed⟩ := hlisted.writeEnd []
  have hlines := (hsame.trans hwriting).trans hending
  refine ⟨hlines.others, ⟨_, hframes, .inr ⟨_, _, listed, _, hprefix, by rw [List.nil_append]⟩⟩,
    fun hhook haccepts => ?_⟩
  obtain ⟨rfl, rfl⟩ := hplain hhook
  obtain rfl := hall fun n => hsame.reception ▸ haccepts n
  obtain ⟨length, hdone, hphase⟩ := hclosed fun n => (hsame.trans hwriting).reception ▸ haccepts n
  rw [if_pos hdone, List.nil_append] at hframes
  exact ⟨⟨_, length, rfl, hphase⟩, hframes⟩

/-- Sending entries tells them. -/
theorem lists_sendItems (id : Nat) (request : Request) (entries : List (String × Document))
    (lines : Lines) :
    Lists request entries lines (sendItems id request (entries.map .ok) lines) := by
  let fresh : Stream :=
    ⟨id, Status.ok.statusCode, ∅, some linesContentType, none, none, ∅, .notStarted⟩
  have hbuild : Stream.build id Status.ok.code ∅ =
      .ok { fresh with contentType := none } := rfl
  have hheaders : ((∅ : Headers).setDefault "Content-Type" linesContentType).wire =
      [(.ofString "content-type", .ofString linesContentType)] := by
    decide +kernel
  have hplain (hhook : request.hook = []) :
      Stream.runHook request.hook fresh = (.ok (), fresh) := by
    rw [hhook]
    rfl
  simp only [sendItems, hbuild, Stream.prepare_eq]
  rcases hrun : Stream.runHook request.hook fresh with ⟨passed, ready⟩
  cases passed with
  | error error =>
    refine lists_unstarted entries _ (.refl _ _) rfl fun hhook => ?_
    rw [hplain hhook] at hrun
    cases hrun
  | ok =>
    obtain ⟨hsame, hunderway, hkept, haccepted⟩ := Stream.underway_start ready request lines
    dsimp only
    rcases hstart : ready.start .untilDone request lines with ⟨outcome, after, lines'⟩
    rw [hstart] at hsame hunderway hkept haccepted
    cases outcome with
    | failed error =>
      exact lists_unstarted entries _ hsame (hkept nofun) fun _ haccepts =>
        nomatch haccepted haccepts
    | cancelled =>
      exact lists_unstarted entries _ hsame (hkept nofun) fun _ haccepts =>
        nomatch haccepted haccepts
    | done =>
      refine lists_started entries hsame (hunderway rfl) fun hhook => ?_
      rw [hplain hhook] at hrun
      cases hrun
      exact ⟨rfl, hheaders⟩

end Handlers

end DocumentServer
