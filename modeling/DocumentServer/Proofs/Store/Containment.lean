import DocumentServer.Proofs.Store.Keeping
import DocumentServer.Store.Call

/-! Documents that nest too deep to be read back. Such a document is put as any other; reading it
fails, and so does a page that it stands on. Nothing else tells it from another document, because
the calls that do not read it see of it no more than its name, and what is put in its place or
dropped leaves the store as if it had never been there. -/
namespace DocumentServer

/-- The call does not read the document under a name. -/
def StoreCall.Spares (key : String) : StoreCall → Prop
  | .get other => other ≠ key
  | .items _ => False
  | _ => True

namespace ObjectStore

variable {store store' : ObjectStore} {key : String} {document : Document}

/-! ### Reading -/

theorem get_put_self : (store.put key document).get key = (decode document.text).map some := by
  refine get_of_text ?_
  rw [put, KeyMap.get?_insert, if_pos rfl]

theorem get_put_of_ne {other : String} (h : other ≠ key) :
    (store.put key document).get other = store.get other := by
  rw [ObjectStore.get, put, KeyMap.get?_insert, if_neg h, ObjectStore.get]

theorem get_erase (other : String) :
    (store.erase key).get other = if other = key then .ok none else store.get other := by
  rw [ObjectStore.get, erase, KeyMap.get?_erase]
  by_cases h : other = key
  · rw [if_pos h, if_pos h]
  · rw [if_neg h, if_neg h, ObjectStore.get]

theorem get_put_readable (h : document.Readable) :
    (store.put key document).get key = .ok (some document) := by
  rw [get_put_self, decode_text h]
  rfl

theorem get_put_deep (hcanonical : document.Canonical) (hintegral : document.Integral)
    (hdepth : Document.nestingLimit < document.depth) :
    ∃ text, (store.put key document).get key = .error (.decoding text) := by
  obtain ⟨fault, hfault⟩ := Document.decode_encode_deep hcanonical hintegral hdepth
  rw [Document.encode] at hfault
  rw [get_put_self, decode, hfault]
  exact ⟨_, rfl⟩

/-! ### Pages -/

/-- The names that a page is read for. -/
def pageNames (store : ObjectStore) (cursor : Option String) (limit : Nat) : List String :=
  (store.keys.filter (KeyMap.Behind cursor ·)).take limit

theorem decodeEntries_cases (texts : List (String × String)) :
    (∃ entries, decodeEntries texts = .ok entries ∧ Reads texts entries) ∨
    ∃ error, decodeEntries texts = .error error ∧
      ∃ entry ∈ texts, decode entry.2 = .error error := by
  induction texts with
  | nil => exact .inl ⟨[], rfl, rfl⟩
  | cons head rest ih =>
    cases hdecode : decode head.2 with
    | error error =>
      refine .inr ⟨error, ?_, head, List.mem_cons_self, hdecode⟩
      simp only [decodeEntries, hdecode]
    | ok document =>
      rcases ih with ⟨entries, hentries, hrest⟩ | ⟨error, herror, entry, member, hentry⟩
      · refine .inl ⟨(head.1, document) :: entries, ?_, ?_⟩
        · simp only [decodeEntries, hdecode, hentries]
        · rw [Reads, List.map_cons, List.map_cons, hrest, hdecode]
      · refine .inr ⟨error, ?_, entry, List.mem_cons_of_mem _ member, hentry⟩
        simp only [decodeEntries, hdecode, herror]

/-- A page gives the documents under its names, or the error of one of them. -/
theorem pageAfter_cases (cursor : Option String) {limit : Nat} (hlimit : 1 ≤ limit) :
    (∃ entries : List (String × Document), store.pageAfter cursor limit = .ok entries ∧
      (store.pageNames cursor limit).map (fun name => (name, store.get name)) =
        entries.map fun entry => (entry.1, .ok (some entry.2))) ∨
    ∃ error, store.pageAfter cursor limit = .error error ∧
      ∃ name ∈ store.pageNames cursor limit, store.get name = .error error := by
  let texts := (store.objects.after cursor).take limit
  have hpage : store.pageAfter cursor limit = decodeEntries texts := by
    rw [pageAfter, Nat.max_eq_left hlimit]
  have hnames : store.pageNames cursor limit = texts.map (·.1) := by
    rw [pageNames, keys, ← KeyMap.map_fst_after, List.map_take]
  have hget (entry) (member : entry ∈ texts) : store.get entry.1 = (decode entry.2).map some := by
    obtain ⟨member, -⟩ := (KeyMap.mem_after _).1 (List.mem_of_mem_take member)
    exact get_of_text ((store.objects.mem_entries_iff _ _).1 member)
  rw [hpage, hnames]
  rcases decodeEntries_cases texts with
    ⟨entries, hentries, htexts⟩ | ⟨error, herror, entry, member, hentry⟩
  · refine .inl ⟨entries, hentries, ?_⟩
    have hsome := congrArg (List.map fun entry : String × Except DbError Document =>
      (entry.1, entry.2.map some)) htexts
    rw [List.map_map, List.map_map] at hsome
    rw [List.map_map, List.map_congr_left fun entry member => by
      rw [Function.comp_apply, hget entry member]]
    exact hsome
  · refine .inr ⟨error, herror, entry.1, List.mem_map_of_mem member, ?_⟩
    rw [hget entry member, hentry]
    rfl

theorem pageAfter_error_iff (cursor : Option String) {limit : Nat} (hlimit : 1 ≤ limit) :
    (∃ error, store.pageAfter cursor limit = .error error) ↔
      ∃ name ∈ store.pageNames cursor limit, ∃ error, store.get name = .error error := by
  rcases store.pageAfter_cases cursor hlimit with
    ⟨entries, hpage, hentries⟩ | ⟨error, hpage, name, member, hname⟩
  · constructor
    · rintro ⟨error, h⟩
      rw [hpage] at h
      cases h
    · rintro ⟨name, member, error, hname⟩
      have hread : (name, store.get name) ∈
          entries.map fun entry => (entry.1, .ok (some entry.2)) :=
        hentries ▸ List.mem_map_of_mem (f := fun name => (name, store.get name)) member
      simp [hname] at hread
  · exact ⟨fun _ => ⟨name, member, error, hname⟩, fun _ => ⟨error, hpage⟩⟩

/-! ### Calls that do not read the document -/

/-- The stores have the same names, and the same texts under all of them but one. -/
structure Alike (key : String) (store store' : ObjectStore) : Prop where
  names : store.objects.mapValues (fun _ => ()) = store'.objects.mapValues fun _ => ()
  texts : ∀ other ≠ key, store.objects.get? other = store'.objects.get? other

namespace Alike

variable (h : Alike key store store')

include h

theorem contains (other : String) : store.contains other = store'.contains other := by
  rw [ObjectStore.contains, ← KeyMap.contains_mapValues (f := fun _ => ()), h.names,
    KeyMap.contains_mapValues, ObjectStore.contains]

theorem size : store.size = store'.size := by
  rw [ObjectStore.size, ← KeyMap.size_mapValues (f := fun _ => ()), h.names,
    KeyMap.size_mapValues, ObjectStore.size]

theorem keys : store.keys = store'.keys := by
  rw [ObjectStore.keys, ← KeyMap.keys_mapValues (f := fun _ => ()), h.names,
    KeyMap.keys_mapValues, ObjectStore.keys]

theorem put (other : String) (document : Document) :
    Alike key (store.put other document) (store'.put other document) := by
  constructor
  · simp only [ObjectStore.put, KeyMap.mapValues_insert, h.names]
  · intro name hname
    simp only [ObjectStore.put, KeyMap.get?_insert, h.texts name hname]

theorem erase (other : String) : Alike key (store.erase other) (store'.erase other) := by
  constructor
  · simp only [ObjectStore.erase, KeyMap.mapValues_erase, h.names]
  · intro name hname
    simp only [ObjectStore.erase, KeyMap.get?_erase, h.texts name hname]

/-- A call that does not read the one text answers the same and keeps the stores alike. -/
theorem call {call : StoreCall} (hcall : call.Spares key) :
    (store.call call).1 = (store'.call call).1 ∧
      Alike key (store.call call).2 (store'.call call).2 := by
  cases call with
  | get other =>
    refine ⟨?_, h⟩
    simp only [ObjectStore.call, ObjectStore.get, h.texts other hcall]
  | set other document => exact ⟨rfl, h.put other document⟩
  | delete other =>
    simp only [ObjectStore.call, ObjectStore.delete, h.contains other]
    cases store'.contains other with
    | false => exact ⟨rfl, h⟩
    | true => exact ⟨rfl, h.erase other⟩
  | contains other => exact ⟨by simp only [ObjectStore.call, h.contains], h⟩
  | size => exact ⟨by simp only [ObjectStore.call, h.size], h⟩
  | keys => exact ⟨by simp only [ObjectStore.call, h.keys], h⟩
  | items => exact hcall.elim

theorem callEach {calls : List StoreCall} (hcalls : ∀ call ∈ calls, call.Spares key) :
    (store.callEach calls).1 = (store'.callEach calls).1 := by
  induction calls generalizing store store' with
  | nil => rfl
  | cons call calls ih =>
    obtain ⟨hcall, hcalls⟩ := List.forall_mem_cons.1 hcalls
    obtain ⟨hanswer, hafter⟩ := h.call hcall
    simp only [ObjectStore.callEach, hanswer, ih hafter hcalls]

end Alike

/-- Stores that differ in what was put under a name are alike. -/
theorem alike_put (store : ObjectStore) (key : String) (document document' : Document) :
    Alike key (store.put key document) (store.put key document') := by
  constructor
  · simp only [put, KeyMap.mapValues_insert]
  · intro other hother
    simp only [put, KeyMap.get?_insert, if_neg hother]

/-! ### What was put -/

/-- What a store shows after a document was put under a name. -/
structure Contained (store : ObjectStore) (key : String) (document : Document)
    (after : ObjectStore) : Prop where
  readable : document.depth ≤ Document.nestingLimit → after.get key = .ok (some document)
  refused : Document.nestingLimit < document.depth →
    ∃ text, after.get key = .error (.decoding text)
  others : ∀ other ≠ key, after.get other = store.get other
  contains : ∀ other, after.contains other = (other == key || store.contains other)
  size : after.size = if store.contains key then store.size else store.size + 1
  filled : after.size ≠ 0
  ascending : after.keys.Pairwise (· < ·)
  keys : ∀ other, other ∈ after.keys ↔ other = key ∨ other ∈ store.keys
  /-- The calls that do not read the document answer as if another stood in its place. -/
  alike : ∀ (document' : Document) (calls : List StoreCall), (∀ call ∈ calls, call.Spares key) →
    (after.callEach calls).1 = ((store.put key document').callEach calls).1
  /-- A page fails exactly when a document on it can not be read. -/
  page_error : ∀ (cursor : Option String) (limit : Nat), 1 ≤ limit →
    ((∃ error, after.pageAfter cursor limit = .error error) ↔
      ∃ name ∈ after.pageNames cursor limit, ∃ error, after.get name = .error error)
  /-- A page that does not fail holds the documents under its names. -/
  page : ∀ (cursor : Option String) (limit : Nat), 1 ≤ limit →
    ∀ entries, after.pageAfter cursor limit = .ok entries →
      (after.pageNames cursor limit).map (fun name => (name, after.get name)) =
        entries.map fun entry => (entry.1, .ok (some entry.2))
  overwritten : ∀ document', after.put key document' = store.put key document'
  dropped : after.delete key = .ok (store.erase key)
  erased : ∀ other, (store.erase key).get other = if other = key then .ok none else store.get other

theorem contains_put (store : ObjectStore) (key : String) (document : Document) (other : String) :
    (store.put key document).contains other = (other == key || store.contains other) :=
  store.objects.contains_insert key document.text other

theorem size_put (store : ObjectStore) (key : String) (document : Document) :
    (store.put key document).size = if store.contains key then store.size else store.size + 1 :=
  store.objects.size_insert key document.text

theorem mem_keys_put (store : ObjectStore) (key : String) (document : Document) (other : String) :
    other ∈ (store.put key document).keys ↔ other = key ∨ other ∈ store.keys := by
  have hcontains := store.contains_put key document other
  rw [ObjectStore.contains, ObjectStore.contains] at hcontains
  rw [ObjectStore.keys, ObjectStore.keys, KeyMap.mem_keys_iff, KeyMap.mem_keys_iff, hcontains]
  simp

theorem put_put (store : ObjectStore) (key : String) (document document' : Document) :
    (store.put key document).put key document' = store.put key document' := by
  rw [put, put, put, KeyMap.insert_insert]

theorem delete_put (store : ObjectStore) (key : String) (document : Document) :
    (store.put key document).delete key = .ok (store.erase key) := by
  have hfound : (store.put key document).contains key = true := by simp [contains_put]
  rw [delete, if_pos hfound, put, erase, erase, KeyMap.erase_insert]

/-- Every document with integers of 64 bits can be put. It reads back unless it nests too deep, and
then it stands in the way of nothing but its own reading. -/
theorem put_contained (store : ObjectStore) (key : String) {document : Document}
    (hcanonical : document.Canonical) (hintegral : document.Integral) :
    store.call (.set key document) = (.ok .done, store.put key document) ∧
      Contained store key document (store.put key document) := by
  refine ⟨rfl, ?_⟩
  constructor
  case readable => exact fun hdepth => get_put_readable ⟨hcanonical, hintegral, hdepth⟩
  case refused => exact get_put_deep hcanonical hintegral
  case others => exact fun _ => get_put_of_ne
  case contains => exact store.contains_put key document
  case size => exact store.size_put key document
  case filled =>
    have hfound : (store.put key document).contains key = true := by simp [contains_put]
    exact KeyMap.size_ne_zero hfound
  case ascending => exact List.pairwise_map.2 (store.put key document).objects.ascending
  case keys => exact store.mem_keys_put key document
  case alike => exact fun document' calls => (alike_put store key document document').callEach
  case page_error => exact fun cursor limit => pageAfter_error_iff cursor
  case page =>
    intro cursor limit hlimit entries hpage
    rcases pageAfter_cases cursor hlimit with ⟨found, hfound, hentries⟩ | ⟨error, herror, -⟩
    · rw [hpage, Except.ok.injEq] at hfound
      rw [hentries, hfound]
    · rw [hpage] at herror
      cases herror
  case overwritten => exact store.put_put key document
  case dropped => exact store.delete_put key document
  case erased => exact get_erase

/-- As many brackets around a null as there are levels. -/
def nested : Nat → Document
  | 0 => .null
  | levels + 1 => .array [nested levels]

theorem canonical_nested (levels : Nat) : (nested levels).Canonical := by
  induction levels with
  | zero => exact .null
  | succ levels ih => exact .array (List.forall_mem_singleton.2 ih)

theorem integral_nested (levels : Nat) : (nested levels).Integral := by
  induction levels with
  | zero => exact .null
  | succ levels ih => exact .array (List.forall_mem_singleton.2 ih)

theorem depth_nested (levels : Nat) : (nested levels).depth = levels := by
  induction levels with
  | zero => rfl
  | succ levels ih => simp [nested, Document.depth, Document.depthOfItems, ih]

/-- One level of brackets decides whether a document reads back. -/
theorem put_contained_at_limit :
    ((∅ : ObjectStore).put "a" (nested 127)).get "a" = .ok (some (nested 127)) ∧
      (∃ text, ((∅ : ObjectStore).put "a" (nested 128)).get "a" = .error (.decoding text)) ∧
      ∃ error, ((∅ : ObjectStore).put "a" (nested 128)).pageAfter none 1 = .error error := by
  obtain ⟨-, hreadable⟩ := put_contained ∅ "a" (canonical_nested 127) (integral_nested 127)
  obtain ⟨-, hdeep⟩ := put_contained ∅ "a" (canonical_nested 128) (integral_nested 128)
  obtain ⟨text, htext⟩ := hdeep.refused (by rw [depth_nested]; decide)
  refine ⟨hreadable.readable (by rw [depth_nested]; decide), ⟨text, htext⟩, ?_⟩
  exact (hdeep.page_error none 1 (Nat.le_refl _)).2 ⟨"a", List.mem_singleton.2 rfl, _, htext⟩

end ObjectStore

end DocumentServer
