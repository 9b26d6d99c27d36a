import DocumentServer.Proofs.Gateway.Catalog
import DocumentServer.Proofs.Gateway.ItemLines
import DocumentServer.Proofs.Store.Containment
import DocumentServer.Proofs.Store.Cutting

/-! Item streams of databases with a text that can not be read. The stream has begun by then, so
its status stands: the lines of the whole pages before the text are sent, then one line that tells
of the error, and then the stream ends as any other. -/
namespace DocumentServer.Handlers

/-- The line that tells of an error in place of the items from there on. -/
def failureLine (error : DbError) : Bytes :=
  (failureDocument "ServerError" error.message).encode ++ [10]

theorem itemLine_error (error : DbError) : itemLine (.error error) = failureLine error := by
  rw [itemLine, Bytes.ofString_eq, String.toList_push, Bytes.ofChars_append, ← Bytes.ofString_eq,
    itemDocument, errorDocument_eq]
  rfl

theorem map_itemLine_failure (entries : List (String × Document)) (error : DbError) :
    (reported (entries.map .ok ++ [.error error])).map itemLine =
      entries.map entryLine ++ [failureLine error] := by
  have hlines : (entries.map .ok).map itemLine = entries.map entryLine := by
    rw [List.map_map]
    exact List.map_congr_left fun entry _ => itemLine_ok entry
  rw [reported_failure, List.map_append, hlines, List.map_singleton, itemLine_error]

/-- A store with a text that can not be read has room for the pages before it and the error. -/
theorem length_lt_size {store : ObjectStore} {index : Nat} {error : DbError}
    {entries : List (String × Document)} (hcut : store.CutAt index error)
    (hgives : Paging.GivesUntil store index entries) : entries.length < store.size := by
  obtain ⟨key, hkey, -⟩ := hcut.unreadable
  obtain ⟨hless, -⟩ := List.getElem?_eq_some_iff.1 hkey
  have hlength : entries.length = min (64 * (index / 64)) store.keys.length := by
    rw [← List.length_map (f := (·.1)), hgives.names, List.length_take]
  rw [store.length_keys] at hless hlength
  omega

variable {request : Request} {lines : Lines} {app : Application} {name : String}
  {database : Database}

/-- If the first text that can not be read stands at an index, a walk gives the entries of the whole
pages before it, then its error, and then nothing. The item stream tells the same: it keeps its
status, carries a line for each of these entries, one line for the error and the final piece, and no
entry of the page that failed. -/
theorem streamItems_cut
    (hhook : (Stream.runHook request.hook (itemStream app.streams)).1 = .ok ())
    (haccepts : ∀ n, ((lines request.line).reception n).refusal = none)
    (howned : app.vault.Owned) (hitem : app.getItem name = .ok database)
    {index : Nat} {error : DbError}
    (hcut : (app.vault.content database.number).CutAt index error) (patience : Patience) :
    let store := app.vault.content database.number
    let given := streamItems app "GET" name request lines
    let ready := (Stream.runHook request.hook (itemStream app.streams)).2
    ∃ (text : String) (entries : List (String × Document)) (stream : Stream) (length : Nat),
      error = .decoding text ∧
      entries.map (·.1) = store.keys.take (64 * (index / 64)) ∧
      (∀ entry ∈ entries, store.get entry.1 = .ok (some entry.2)) ∧
      (∀ count, (Paging.fresh.polls store (List.replicate count .poll)).map (·.item) =
        ((entries.map .ok ++ [.error error] : List StoreItem).map some).take count ++
          List.replicate (count - (entries.length + 1)) none) ∧
      given.1 = .ok (.stream stream) ∧ stream.phase = .closed length ∧
      (given.2.2 request.line).frames = (lines request.line).frames ++
        Frame.answer ready.status.val ready.startHeaders.wire
          (entries.map entryLine ++ [failureLine error]) (some []) ∧
      HandlerResult.emit given.1 patience request given.2.2 = (.done (), given.2.2) ∧
      (request.hook = [] → ready.status.val = 200) := by
  intro store given ready
  obtain ⟨entries, last, hgives, hyields, hover⟩ := Paging.yields_of_cutAt hcut
  obtain ⟨key, -, hget⟩ := hcut.unreadable
  obtain ⟨text, rfl⟩ := ObjectStore.get_error hget
  have hall : Paging.allItems store = entries.map .ok ++ [.error (.decoding text)] := by
    have hroom := length_lt_size hcut hgives
    rw [Paging.allItems, hyields.takeItems hover, List.take_of_length_le]
    rw [List.length_append, List.length_map, List.length_singleton]
    exact Nat.succ_le_succ (Nat.le_of_lt hroom)
  obtain ⟨stream, length, hresult, hclosed, hframes, hemit⟩ :=
    streamItems_accepted hhook haccepts howned hitem patience
  rw [show Paging.allItems (app.vault.content database.number) = _ from hall,
    map_itemLine_failure] at hframes
  refine ⟨text, entries, stream, length, rfl, hgives.names, hgives.documents, fun count => ?_,
    hresult, hclosed, hframes, hemit, fun hplain => ?_⟩
  · rw [hyields.items_polls hover count, List.length_append, List.length_map,
      List.length_singleton]
  · simp only [ready, hplain]
    rfl

/-- The text that can not be read stands behind another on the first page, so neither is listed. -/
theorem streamItems_cut_in_first_page :
    let store := ((∅ : ObjectStore).put "a" .null).put "b" (ObjectStore.nested 128)
    let app : Application := { Application.empty none with
      vault := ⟨[⟨store, none, none⟩], 0⟩, databases := KeyMap.ofList [("main", ⟨0, "main"⟩)] }
    let request : Request := ⟨"GET", "/main/@items", none, [], 0⟩
    let lines : Lines := fun _ => .recorder
    let given := streamItems app "GET" "main" request lines
    (Stream.runHook request.hook (itemStream app.streams)).1 = .ok () ∧
      (∀ n, ((lines 0).reception n).refusal = none) ∧ app.vault.Owned ∧
      app.getItem "main" = .ok ⟨0, "main"⟩ ∧
      ∃ (text : String) (headers : List (Bytes × Bytes)), store.CutAt 1 (.decoding text) ∧
        (given.2.2 0).frames =
          Frame.answer 200 headers [failureLine (.decoding text)] (some []) := by
  intro store app request lines given
  have hnull : Document.Readable .null := ⟨.null, .null, by decide⟩
  have hkeys : store.keys = ["a", "b"] := by
    have hgreater : ¬ "b" < "a" := by decide
    have hless : "a" < "b" := by decide
    show (KeyMap.insertEntry "b" (ObjectStore.nested 128).text
      [("a", Document.null.text)]).map (·.1) = _
    simp [KeyMap.insertEntry, hgreater, hless]
  have hdeep : ∃ text, store.get "b" = .error (.decoding text) :=
    ObjectStore.get_put_deep (ObjectStore.canonical_nested 128) (ObjectStore.integral_nested 128)
      (by rw [ObjectStore.depth_nested]; decide)
  obtain ⟨text, htext⟩ := hdeep
  have hcut : store.CutAt 1 (.decoding text) := by
    refine ⟨⟨"b", by rw [hkeys]; rfl, htext⟩, fun i hi key hkey => ?_⟩
    obtain rfl : i = 0 := by omega
    rw [hkeys] at hkey
    obtain rfl : "a" = key := by simpa using hkey
    refine ⟨.null, ?_⟩
    rw [ObjectStore.get_put_of_ne (by decide), ObjectStore.get_put_readable hnull]
  have howned : app.vault.Owned := by
    intro number cell manager hcell hown
    cases number with
    | zero => cases hcell; cases hown
    | succ => cases hcell
  have haccepts (n : Nat) : ((lines 0).reception n).refusal = none := rfl
  obtain ⟨-, entries, -, -, -, hnames, -, -, -, -, hframes, -, hstatus⟩ :=
    streamItems_cut (show (Stream.runHook request.hook _).1 = .ok () from rfl) haccepts howned
      (show app.getItem "main" = .ok ⟨0, "main"⟩ from rfl) hcut .untilDone
  obtain rfl : entries = [] := by simpa using hnames
  have hnone : (lines request.line).frames = [] := rfl
  have hline : request.line = 0 := rfl
  rw [hstatus rfl, hnone, List.map_nil, List.nil_append, List.nil_append, hline] at hframes
  -- The unifier would run `given`.
  have hgiven : given = streamItems app "GET" "main" request lines := rfl
  rw [← hgiven] at hframes
  exact ⟨rfl, haccepts, howned, rfl, text, _, hcut, hframes⟩

end DocumentServer.Handlers
