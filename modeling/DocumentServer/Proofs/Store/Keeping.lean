import DocumentServer.Proofs.Document.Nesting
import DocumentServer.Store.Paging

/-! Stores whose texts read back. Such a store answers every call as the map of its documents does,
and a walk through it gives out every entry once, in ascending order of the names: the entries that
wait in the buffer and those behind the cursor are together what was not given out yet. -/
namespace DocumentServer

/-- The document reads back from its text. -/
structure Document.Readable (document : Document) : Prop where
  canonical : document.Canonical
  integral : document.Integral
  depth : document.depth ≤ nestingLimit

/-- What was decoded reads back, if its numbers are integers of 64 bits. -/
theorem Document.readable_decode {input : Bytes} {document : Document}
    (h : decode input = .ok document) (hintegral : document.Integral) : document.Readable :=
  ⟨(canonical_decode h).1, hintegral, (canonical_decode h).2⟩

namespace ObjectStore

theorem decode_text {document : Document} (h : document.Readable) :
    decode document.text = .ok document := by
  have hread := Document.decode_encode h.canonical h.integral h.depth
  rw [Document.encode] at hread
  rw [decode, hread]

/-- The texts read back as the documents of the entries. -/
def Reads (texts : List (String × String)) (entries : List (String × Document)) : Prop :=
  texts.map (fun entry => (entry.1, decode entry.2)) =
    entries.map fun entry => (entry.1, .ok entry.2)

theorem decodeEntries_eq {texts : List (String × String)} {entries : List (String × Document)}
    (h : Reads texts entries) : decodeEntries texts = .ok entries := by
  induction texts generalizing entries with
  | nil =>
    obtain rfl : entries = [] := by simpa [Reads] using h.symm
    rfl
  | cons head texts ih =>
    obtain ⟨key, text⟩ := head
    cases entries with
    | nil => cases h
    | cons entry entries =>
      rw [Reads, List.map_cons, List.map_cons, List.cons.injEq, Prod.mk.injEq] at h
      obtain ⟨⟨hkey, htext⟩, hrest⟩ := h
      replace hkey : key = entry.1 := hkey
      simp only [decodeEntries, htext, ih hrest, hkey]

/-- Every text that stands in the store reads back. -/
def Legible (store : ObjectStore) : Prop := ∀ key, ∃ found, store.get key = .ok found

/-- The texts of the store read back as the given documents. -/
def Shows (store : ObjectStore) (documents : KeyMap Document) : Prop :=
  store.objects.mapValues decode = documents.mapValues .ok

/-- The store holds the texts of the given documents, all of which read back. -/
structure Keeps (store : ObjectStore) (documents : KeyMap Document) : Prop where
  objects : store.objects = documents.mapValues Document.text
  readable : ∀ entry ∈ documents.entries, entry.2.Readable

theorem keeps_empty : Keeps ∅ ∅ := ⟨rfl, fun _ h => nomatch h⟩

variable {store : ObjectStore} {documents : KeyMap Document}

theorem length_keys (store : ObjectStore) : store.keys.length = store.size := List.length_map ..

theorem get_of_text {key text : String} (h : store.objects.get? key = some text) :
    store.get key = (decode text).map some := by
  rw [ObjectStore.get, h]

theorem get_eq_some_iff {key text : String} (h : store.objects.get? key = some text)
    {document : Document} :
    store.get key = .ok (some document) ↔ decode text = .ok document := by
  rw [get_of_text h]
  cases decode text <;> simp [Except.map]

theorem get_eq_error_iff {key text : String} (h : store.objects.get? key = some text)
    {error : DbError} : store.get key = .error error ↔ decode text = .error error := by
  rw [get_of_text h]
  cases decode text <;> simp [Except.map]

theorem Keeps.shows (h : store.Keeps documents) : store.Shows documents := by
  rw [Shows, h.objects]
  refine KeyMap.ext ?_
  simp only [KeyMap.mapValues, List.map_map]
  refine List.map_congr_left fun entry member => ?_
  simp only [Function.comp_apply, decode_text (h.readable entry member)]

/-- A store whose texts read back shows the documents that they read back as. -/
theorem Legible.exists_shows (h : store.Legible) : ∃ documents, store.Shows documents := by
  let document (text : String) : Document := (decode text).toOption.getD .null
  refine ⟨store.objects.mapValues document, KeyMap.ext ?_⟩
  simp only [KeyMap.mapValues, List.map_map]
  refine List.map_congr_left fun entry member => ?_
  obtain ⟨found, hfound⟩ := h entry.1
  rw [get_of_text ((store.objects.mem_entries_iff _ _).1 member)] at hfound
  cases hdecode : decode entry.2 with
  | error error => rw [hdecode] at hfound; cases hfound
  | ok value => simp [document, hdecode, Except.toOption]

namespace Shows

variable (h : store.Shows documents)

include h

theorem get (key : String) : store.get key = .ok (documents.get? key) := by
  have hkey := congrArg (KeyMap.get? · key) h
  simp only [KeyMap.get?_mapValues] at hkey
  rw [ObjectStore.get]
  cases htext : store.objects.get? key with
  | none =>
    rw [htext, Option.map_none, eq_comm, Option.map_eq_none_iff] at hkey
    rw [hkey]
  | some text =>
    rw [htext, Option.map_some, eq_comm, Option.map_eq_some_iff] at hkey
    obtain ⟨document, hdocument, hdecode⟩ := hkey
    simp only [hdocument, ← hdecode]
    rfl

theorem legible : store.Legible := fun key => ⟨_, h.get key⟩

theorem keys : store.keys = documents.keys := by
  rw [ObjectStore.keys, ← KeyMap.keys_mapValues (f := decode), h, KeyMap.keys_mapValues]

theorem contains (key : String) : store.contains key = documents.contains key := by
  rw [ObjectStore.contains, ← KeyMap.contains_mapValues (f := decode), h, KeyMap.contains_mapValues]

theorem size : store.size = documents.size := by
  rw [ObjectStore.size, ← KeyMap.size_mapValues (f := decode), h, KeyMap.size_mapValues]

theorem pageAfter (cursor : Option String) (limit : Nat) :
    store.pageAfter cursor limit = .ok ((documents.after cursor).take (max limit 1)) := by
  have hafter := congrArg (fun map => (map.after cursor).take (max limit 1)) h
  simp only [KeyMap.after_mapValues, ← List.map_take] at hafter
  exact decodeEntries_eq hafter

end Shows

section Keeps

variable (h : store.Keeps documents)

include h

theorem Keeps.put {document : Document} (hdocument : document.Readable) (key : String) :
    (store.put key document).Keeps (documents.insert key document) := by
  refine ⟨?_, fun entry member => ?_⟩
  · rw [ObjectStore.put, h.objects, KeyMap.mapValues_insert]
  · rcases KeyMap.mem_insertEntry member with rfl | member
    · exact hdocument
    · exact h.readable entry member

theorem Keeps.erase (key : String) : (store.erase key).Keeps (documents.erase key) := by
  refine ⟨?_, fun entry member => h.readable entry (List.mem_filter.1 member).1⟩
  rw [ObjectStore.erase, h.objects, KeyMap.mapValues_erase]

theorem Keeps.delete (key : String) :
    store.delete key =
      if documents.contains key then .ok (store.erase key) else .error (.notFound key) := by
  rw [ObjectStore.delete, h.shows.contains]

end Keeps

end ObjectStore

namespace Paging

/-- What a walk has still to give out. -/
def rest (paging : Paging) (documents : KeyMap Document) : List (String × Document) :=
  paging.buffer ++ if paging.done then [] else documents.after paging.cursor

theorem rest_fresh (documents : KeyMap Document) : fresh.rest documents = documents.entries := rfl

/-- A page together with what lies behind it is what lay behind the cursor. -/
theorem rest_received (paging : Paging) (documents : KeyMap Document) :
    (paging.received ((documents.after paging.cursor).take pageSize)).rest documents =
      documents.after paging.cursor := by
  let behind := documents.after paging.cursor
  show behind.take pageSize ++
    (if decide ((behind.take pageSize).length < pageSize) = true then []
      else documents.after (((behind.take pageSize).getLast?.map (·.1)).or paging.cursor)) = behind
  by_cases hshort : (behind.take pageSize).length < pageSize
  · have hlength : behind.length ≤ pageSize := by
      rw [List.length_take] at hshort
      omega
    rw [if_pos (decide_eq_true hshort), List.append_nil, List.take_of_length_le hlength]
  · have hsome : behind.take pageSize ≠ [] := by
      intro hnil
      rw [hnil] at hshort
      exact hshort (by decide)
    let last := (behind.take pageSize).getLast hsome
    have hlast : (behind.take pageSize).getLast? = some last := List.getLast?_eq_some_getLast hsome
    have hsplit : behind = (behind.take pageSize).dropLast ++ last :: behind.drop pageSize := by
      rw [List.append_cons, List.dropLast_concat_getLast hsome, List.take_append_drop]
    have hafter : documents.after (some last.1) = behind.drop pageSize :=
      documents.after_of_split hsplit
    rw [if_neg (by simpa using hshort), hlast, Option.map_some, Option.some_or, hafter,
      List.take_append_drop]

theorem needsPage_received (paging : Paging) (page : List (String × Document)) :
    (paging.received page).needsPage = false := by
  cases page with
  | nil => rfl
  | cons => rfl

theorem takeBuffered_eq {paging : Paging} (h : paging.needsPage = false)
    (documents : KeyMap Document) :
    paging.takeBuffered.1 = (paging.rest documents).head?.map .ok ∧
      paging.takeBuffered.2.rest documents = (paging.rest documents).tail := by
  rcases paging with ⟨cursor, buffer, done⟩
  cases buffer with
  | nil =>
    obtain rfl : done = true := by simpa [needsPage] using h
    exact ⟨rfl, rfl⟩
  | cons => exact ⟨rfl, rfl⟩

def refilled (paging : Paging) (documents : KeyMap Document) : Paging :=
  if paging.needsPage then paging.received ((documents.after paging.cursor).take pageSize)
  else paging

theorem needsPage_eq_true {paging : Paging} (h : paging.needsPage = true) :
    paging.buffer = [] ∧ paging.done = false := by
  simpa [needsPage] using h

theorem needsPage_refilled (paging : Paging) (documents : KeyMap Document) :
    (paging.refilled documents).needsPage = false := by
  unfold refilled
  cases hneeds : paging.needsPage with
  | false => simpa using hneeds
  | true => exact needsPage_received ..

theorem rest_refilled (paging : Paging) (documents : KeyMap Document) :
    (paging.refilled documents).rest documents = paging.rest documents := by
  unfold refilled
  cases hneeds : paging.needsPage with
  | false => rfl
  | true =>
    obtain ⟨hbuffer, hdone⟩ := needsPage_eq_true hneeds
    rw [if_pos rfl, rest_received]
    simp [rest, hbuffer, hdone]

variable {store : ObjectStore} {documents : KeyMap Document} (h : store.Shows documents)

include h

theorem poll_eq_takeBuffered (paging : Paging) :
    paging.poll store = (paging.refilled documents).takeBuffered := by
  have hpage : max pageSize 1 = pageSize := rfl
  unfold poll refilled
  cases hneeds : paging.needsPage with
  | false => rfl
  | true => simp only [↓reduceIte, h.pageAfter, hpage]

/-- A poll gives out the next entry and leaves those behind it. -/
theorem poll_eq (paging : Paging) :
    (paging.poll store).1 = (paging.rest documents).head?.map .ok ∧
      (paging.poll store).2.rest documents = (paging.rest documents).tail := by
  rw [poll_eq_takeBuffered h, ← rest_refilled]
  exact takeBuffered_eq (needsPage_refilled paging documents) documents

theorem takeItems_eq (count : Nat) (paging : Paging) :
    (takeItems store count paging).1 = ((paging.rest documents).take count).map .ok := by
  induction count generalizing paging with
  | zero => rfl
  | succ count ih =>
    obtain ⟨hitem, hrest⟩ := poll_eq h paging
    rw [takeItems]
    rcases hpoll : paging.poll store with ⟨item, after⟩
    rw [hpoll] at hitem hrest
    cases hall : paging.rest documents with
    | nil =>
      rw [hall] at hitem
      subst hitem
      rfl
    | cons entry entries =>
      rw [hall] at hitem hrest
      subst hitem
      simp only [List.head?_cons, Option.map_some, ih after, hrest, List.tail_cons,
        List.take_succ_cons, List.map_cons]

/-- A walk through a store gives out all entries in ascending order of their names. -/
theorem allItems_eq : allItems store = documents.entries.map .ok := by
  have hall : documents.entries.length ≤ documents.size + 1 := Nat.le_succ _
  rw [allItems, takeItems_eq h, h.size, rest_fresh, List.take_of_length_le hall]

end Paging

end DocumentServer
