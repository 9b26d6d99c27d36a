import DocumentServer.Application
import DocumentServer.Proofs.Database.Contents
import DocumentServer.Proofs.Document.OneLine
import DocumentServer.Proofs.Gateway.Listing
import DocumentServer.Proofs.Store.Keeping
import DocumentServer.Proofs.Stream.Sealing
import Mathlib.Data.List.Forall2

/-! The body of an item stream. A line that refuses nothing carries one row for each entry of the
store, in ascending order of the names' bytes, and no row holds the line feed that ends it, so the
rows can be told apart whatever the names and the documents are made of. -/
namespace DocumentServer

/-! ### Entries -/

namespace ObjectStore

/-- The row of an entry: the document of its name and value, which reads back if the value can be
written exactly and leaves room for one more bracket. -/
structure RowOf (store : ObjectStore) (key : String) (row : Bytes) : Prop where
  nonempty : row ≠ []
  oneLine : 10 ∉ row
  document : ∃ value, store.get key = .ok (some value) ∧
    row = (Document.object [("key", .string key), ("value", value)]).encode ∧
    (value.Integral → value.depth ≤ 126 →
      Document.decode row = .ok (.object [("key", .string key), ("value", value)]))

theorem canonical_of_get {store : ObjectStore} {key : String} {value : Document}
    (h : store.get key = .ok (some value)) : value.Canonical := by
  unfold ObjectStore.get at h
  split at h
  · cases h
  next text _ =>
    unfold ObjectStore.decode at h
    cases hdecode : Document.decode (.ofString text) with
    | error fault => rw [hdecode] at h; cases h
    | ok document =>
      rw [hdecode] at h
      cases h
      exact (Document.canonical_decode hdecode).1

/-- An entry is read back from its row. -/
theorem decode_row {key : String} {value : Document} (hcanonical : value.Canonical)
    (hintegral : value.Integral) (hdepth : value.depth ≤ 126) :
    let document := Document.object [("key", .string key), ("value", value)]
    Document.decode document.encode = .ok document := by
  have hless : "key" < "value" := by decide
  refine Document.decode_encode ?_ ?_ ?_
  · refine .object ?_ ?_
    · exact List.pairwise_pair.2 hless
    · simp [hcanonical, Document.Canonical.string]
  · refine .object ?_
    simp [hintegral, Document.Integral.string]
  · simp only [Document.depth, Document.depthOfMembers, Document.nestingLimit]
    omega

theorem rowOf_entry {store : ObjectStore} {key : String} {value : Document}
    (h : store.get key = .ok (some value)) :
    store.RowOf key (Document.object [("key", .string key), ("value", value)]).encode where
  nonempty := by
    rw [Document.encode_eq]
    simp [Document.chars, Bytes.ofChars_cons]
  oneLine := Document.newline_not_mem_encode _
  document := ⟨value, h, rfl, decode_row (canonical_of_get h)⟩

/-- The rows of all entries, by the names in ascending order. -/
theorem rows_of_shows {store : ObjectStore} {documents : KeyMap Document}
    (h : store.Shows documents) :
    ∃ rows, documents.entries.map Handlers.entryLine = rows.map (· ++ [10]) ∧
      List.Forall₂ store.RowOf store.keys rows := by
  let row (entry : String × Document) : Bytes :=
    (Document.object [("key", .string entry.1), ("value", entry.2)]).encode
  refine ⟨documents.entries.map row, ?_, ?_⟩
  · rw [List.map_map]
    refine List.map_congr_left fun entry _ => ?_
    rw [Handlers.entryLine, Handlers.ofMembers_entry]
    rfl
  · rw [h.keys, KeyMap.keys, List.forall₂_map_left_iff, List.forall₂_map_right_iff,
      List.forall₂_same]
    intro entry member
    refine rowOf_entry ?_
    rw [h.get, (documents.mem_entries_iff _ _).1 member]

end ObjectStore

/-! ### Streams -/

namespace Handlers

/-- The stream of a list of items before its start. -/
def itemStream (id : Nat) : Stream :=
  ⟨id, Status.ok.statusCode, ∅, some linesContentType, none, none, ∅, .notStarted⟩

section Sending

variable {id : Nat} {request : Request} {lines : Lines}
  (hhook : (Stream.runHook request.hook (itemStream id)).1 = .ok ())
  (haccepts : ∀ n, ((lines request.line).reception n).refusal = none)

include hhook haccepts

/-- A line that refuses nothing carries the lines of all items up to the first error and the end of
the stream, which is closed. The start frame is that of the stream as the hook left it. -/
theorem sendItems_accepted (items : List StoreItem) :
    let after := sendItems id request items lines
    let ready := (Stream.runHook request.hook (itemStream id)).2
    ∃ stream length, after.1 = .ok (.stream stream) ∧ stream.phase = .closed length ∧
      (after.2 request.line).frames = (lines request.line).frames ++
        Frame.answer ready.status.val ready.startHeaders.wire ((reported items).map itemLine)
          (some []) := by
  have hbuild : Stream.build id Status.ok.code ∅ =
      .ok { itemStream id with contentType := none } := rfl
  have hphase : (itemStream id).phase = .notStarted := rfl
  have hprepare : (itemStream id).prepare .untilDone request lines =
      (Stream.runHook request.hook (itemStream id)).2.start .untilDone request lines := by
    rw [Stream.prepare_eq, hphase]
    rcases hrun : Stream.runHook request.hook (itemStream id) with ⟨passed, ready⟩
    rw [hrun] at hhook
    subst hhook
    rfl
  obtain ⟨hsame, hunderway, -, hdone⟩ := Stream.underway_start
    (Stream.runHook request.hook (itemStream id)).2 request lines
  rw [← hprepare] at hsame hunderway hdone
  have hstream : { itemStream id with contentType := some linesContentType } =
    itemStream id := rfl
  simp only [sendItems, hbuild, hstream]
  rcases hstart : (itemStream id).prepare .untilDone request lines with
    ⟨outcome, started, lines'⟩
  rw [hstart] at hsame hunderway hdone
  obtain rfl : outcome = .done () := hdone haccepts
  have hkept (n : Nat) : ((lines' request.line).reception n).refusal = none :=
    hsame.reception ▸ haccepts n
  obtain ⟨hwriting, hwritten⟩ := writeItems_accepted (hunderway rfl) hkept items
  obtain ⟨-, hframes, hclosed⟩ := hwritten.writeEnd []
  obtain ⟨length, hended, hlast⟩ := hclosed fun n => hwriting.reception ▸ hkept n
  rw [if_pos hended, List.nil_append] at hframes
  exact ⟨_, length, rfl, hlast, hframes⟩

end Sending

variable {request : Request} {lines : Lines} {app : Application} {name : String}
  {database : Database} (hhook : (Stream.runHook request.hook (itemStream app.streams)).1 = .ok ())
  (haccepts : ∀ n, ((lines request.line).reception n).refusal = none)
  (howned : app.vault.Owned) (hitem : app.getItem name = .ok database)

include hhook haccepts howned hitem

/-- The answer to a request for the items of a database carries what a walk through its store gives,
and nothing is sent once the handler is through. -/
theorem streamItems_accepted (patience : Patience) :
    let items := Paging.allItems (app.vault.content database.number)
    let given := streamItems app "GET" name request lines
    let ready := (Stream.runHook request.hook (itemStream app.streams)).2
    ∃ stream length, given.1 = .ok (.stream stream) ∧ stream.phase = .closed length ∧
      (given.2.2 request.line).frames = (lines request.line).frames ++
        Frame.answer ready.status.val ready.startHeaders.wire ((reported items).map itemLine)
          (some []) ∧
      HandlerResult.emit given.1 patience request given.2.2 = (.done (), given.2.2) := by
  intro items given ready
  obtain ⟨stream, length, hresult, hclosed, hframes⟩ := sendItems_accepted hhook haccepts items
  have hitems : (app.update database fun store => (Paging.allItems store, store)).1 = items :=
    Vault.fst_update howned database fun store => (Paging.allItems store, store)
  have hgiven : (given.1, given.2.2) = sendItems app.streams request items lines := by
    show ((streamItems app "GET" name request lines).1,
      (streamItems app "GET" name request lines).2.2) = _
    simp only [streamItems, ne_eq, not_true_eq_false, ↓reduceIte, hitem, hitems]
    rfl
  rw [← hgiven] at hresult hframes
  refine ⟨stream, length, hresult, hclosed, hframes, ?_⟩
  rw [hresult, HandlerResult.emit, HandlerResult.finish, hclosed]

/-- The answer to a request for the items of a database carries all entries of its store. -/
theorem emit_streamItems {documents : KeyMap Document}
    (hshows : (app.vault.content database.number).Shows documents) (patience : Patience) :
    let given := streamItems app "GET" name request lines
    let after := HandlerResult.emit given.1 patience request given.2.2
    ∃ status headers, after.1 = .done () ∧
      (after.2 request.line).frames = (lines request.line).frames ++
        Frame.answer status headers (documents.entries.map entryLine) (some []) := by
  intro given after
  obtain ⟨stream, length, -, -, hframes, hemit⟩ :=
    streamItems_accepted hhook haccepts howned hitem patience
  have hlines : (documents.entries.map .ok).map itemLine = documents.entries.map entryLine := by
    rw [List.map_map]
    exact List.map_congr_left fun entry _ => itemLine_ok entry
  rw [Paging.allItems_eq hshows, reported_entries, hlines] at hframes
  have hafter : after = (.done (), given.2.2) := hemit
  rw [hafter]
  exact ⟨_, _, rfl, hframes⟩

/-- The body of an item stream is one row for each entry of the database, each with a line feed
behind it, and nothing else; without entries it is empty. A row holds no line feed, the rows stand
in ascending order of the bytes of the names, and each reads back as the name and the value of its
entry. -/
theorem rows_of_streamItems (hlegible : (app.vault.content database.number).Legible)
    (patience : Patience) :
    let store := app.vault.content database.number
    let given := streamItems app "GET" name request lines
    let after := HandlerResult.emit given.1 patience request given.2.2
    ∃ sent rows, after.1 = .done () ∧
      (after.2 request.line).frames = (lines request.line).frames ++ sent ∧
      sent.flatMap Frame.data = rows.flatMap (· ++ [10]) ∧
      Bytes.splitOn 10 (sent.flatMap Frame.data) = rows ++ [[]] ∧
      (sent.flatMap Frame.data = [] ↔ store.size = 0) ∧
      List.Forall₂ store.RowOf store.keys rows ∧ rows.length = store.size ∧
      store.keys.Pairwise fun key key' => Bytes.ofString key < Bytes.ofString key' := by
  intro store given after
  obtain ⟨documents, hshows⟩ := hlegible.exists_shows
  obtain ⟨rows, hlines, hrows⟩ := ObjectStore.rows_of_shows hshows
  obtain ⟨status, headers, hdone, hframes⟩ :=
    emit_streamItems hhook haccepts howned hitem hshows patience
  rw [hlines] at hframes
  have hbody : (Frame.answer status headers (rows.map (· ++ [10])) (some [])).flatMap Frame.data =
      rows.flatMap (· ++ [10]) := by
    rw [Frame.flatMap_data_answer, List.append_nil, List.flatMap_def]
  have honeLine : List.Forall₂ (fun row key => 10 ∉ row ∧ store.RowOf key row) rows store.keys :=
    (hrows.imp fun _ _ hrow => ⟨hrow.oneLine, hrow⟩).flip
  have hlength : rows.length = store.size := by
    rw [← hrows.length_eq, ObjectStore.keys, KeyMap.keys, List.length_map]
    rfl
  have hascending : store.keys.Pairwise (· < ·) := List.pairwise_map.2 store.objects.ascending
  refine ⟨_, rows, hdone, hframes, hbody, ?_, ?_, hrows, hlength, ?_⟩
  · rw [hbody]
    exact Bytes.splitOn_flatMap ((List.forall₂_and_left _ _).1 honeLine).1
  · rw [hbody, ← hlength]
    cases rows <;> simp
  · exact hascending.imp fun hless => (Bytes.ofString_lt_iff _ _).2 hless

omit hhook haccepts howned hitem in
/-- Two entries make two rows, although one name and one document hold a line feed and the other
document has a member `error`. -/
theorem rows_of_streamItems_line_feeds :
    let failure : Document := .object [("error", .string "gone\n")]
    let store := ((∅ : ObjectStore).put "a\n\"error\"" failure).put "b" (.array [.integer (-1)])
    let app : Application := { Application.empty none with
      vault := ⟨[⟨store, none, none⟩], 0⟩, databases := KeyMap.ofList [("main", ⟨0, "main"⟩)] }
    let request : Request := ⟨"GET", "/databases/main/items", none, [], 0⟩
    let lines : Lines := fun _ => .recorder
    let given := streamItems app "GET" "main" request lines
    let after := HandlerResult.emit given.1 .untilDone request given.2.2
    app.vault.Owned ∧ app.getItem "main" = .ok ⟨0, "main"⟩ ∧ store.Legible ∧
      (Stream.runHook request.hook (itemStream app.streams)).1 = .ok () ∧
      (∀ n, ((lines 0).reception n).refusal = none) ∧
      ∃ sent rows, (after.2 0).frames = sent ∧
        Bytes.splitOn 10 (sent.flatMap Frame.data) = rows ++ [[]] ∧ rows.length = 2 := by
  intro failure store app request lines
  have hfailure : failure.Readable := by
    refine ⟨.object ?_ ?_, .object ?_, by decide⟩
    · exact List.pairwise_singleton ..
    · simp [Document.Canonical.string]
    · simp [Document.Integral.string]
  have hinteger : (Document.integer (-1)).Integral := .integer (by decide) (by decide)
  have harray : (Document.array [.integer (-1)]).Readable := by
    refine ⟨.array ?_, .array ?_, by decide⟩
    · simp [Document.Canonical.integer]
    · simpa using hinteger
  have hkeeps := (ObjectStore.keeps_empty.put hfailure "a\n\"error\"").put harray "b"
  have howned : app.vault.Owned := by
    intro number cell manager hcell hown
    cases number with
    | zero => cases hcell; cases hown
    | succ => cases hcell
  have hlegible : store.Legible := hkeeps.shows.legible
  have hitem : app.getItem "main" = .ok ⟨0, "main"⟩ := rfl
  have haccepts (n : Nat) : ((lines 0).reception n).refusal = none := rfl
  have hsize : store.size = 2 := by
    have hgreater : ¬ "b" < "a\n\"error\"" := by decide
    have hless : "a\n\"error\"" < "b" := by decide
    show (KeyMap.insertEntry "b" _ [("a\n\"error\"", failure.text)]).length = 2
    simp [KeyMap.insertEntry, hgreater, hless]
  obtain ⟨sent, rows, -, hframes, -, hsplit, -, -, hlength, -⟩ :=
    rows_of_streamItems (show (Stream.runHook request.hook _).1 = .ok () from rfl) haccepts howned
      hitem hlegible .untilDone
  have hnone : (lines request.line).frames = [] := rfl
  have hstore : app.vault.content 0 = store := rfl
  have hline : request.line = 0 := rfl
  rw [hnone, List.nil_append, hline] at hframes
  rw [hstore, hsize] at hlength
  -- With `given` and `after` as names of their own the unifier would run them.
  dsimp only
  exact ⟨howned, hitem, hlegible, rfl, haccepts, sent, rows, hframes, hsplit, hlength⟩

end Handlers

end DocumentServer
