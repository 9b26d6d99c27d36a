import DocumentServer.Proofs.Store.Walking

/-! Walks through a store that holds a text that can not be read. The page that the text is on fails
as a whole, so a walk gives out the pages before it, then the error, and nothing after that. -/
namespace DocumentServer

namespace ObjectStore

/-- The first text that can not be read, in ascending order of the names, stands at an index. -/
structure CutAt (store : ObjectStore) (index : Nat) (error : DbError) : Prop where
  unreadable : ∃ key, store.keys[index]? = some key ∧ store.get key = .error error
  readable : ∀ i < index, ∀ key, store.keys[i]? = some key →
    ∃ document, store.get key = .ok (some document)

variable {store : ObjectStore} {texts : List (String × String)}
  {entries : List (String × Document)} {key text : String} {error : DbError}

theorem decode_error (h : decode text = .error error) : ∃ message, error = .decoding message := by
  unfold decode at h
  split at h
  · cases h
  · cases h
    exact ⟨_, rfl⟩

theorem get_error (h : store.get key = .error error) : ∃ message, error = .decoding message := by
  cases htext : store.objects.get? key with
  | none =>
    rw [ObjectStore.get, htext] at h
    cases h
  | some text => exact decode_error ((get_eq_error_iff htext).1 h)

theorem Reads.names (h : Reads texts entries) : texts.map (·.1) = entries.map (·.1) := by
  have hnames := congrArg (List.map Prod.fst) h
  rwa [List.map_map, List.map_map] at hnames

theorem Reads.length_eq (h : Reads texts entries) : texts.length = entries.length := by
  simpa using congrArg List.length h

theorem Reads.take (h : Reads texts entries) (count : Nat) :
    Reads (texts.take count) (entries.take count) := by
  rw [Reads, List.map_take, List.map_take, h]

theorem Reads.drop (h : Reads texts entries) (count : Nat) :
    Reads (texts.drop count) (entries.drop count) := by
  rw [Reads, List.map_drop, List.map_drop, h]

theorem exists_reads (h : ∀ entry ∈ texts, ∃ document, decode entry.2 = .ok document) :
    ∃ entries, Reads texts entries := by
  induction texts with
  | nil => exact ⟨[], rfl⟩
  | cons head rest ih =>
    obtain ⟨⟨document, hdocument⟩, hrest⟩ := List.forall_mem_cons.1 h
    obtain ⟨entries, hentries⟩ := ih hrest
    refine ⟨(head.1, document) :: entries, ?_⟩
    rw [Reads, List.map_cons, List.map_cons, hdocument, hentries]

theorem Reads.mem (h : Reads texts entries) {entry : String × Document} (member : entry ∈ entries) :
    ∃ text, (entry.1, text) ∈ texts ∧ decode text = .ok entry.2 := by
  have hmapped : (entry.1, Except.ok entry.2) ∈
      texts.map fun entry => (entry.1, decode entry.2) := by
    rw [show texts.map _ = _ from h]
    exact List.mem_map_of_mem (f := fun entry => (entry.1, Except.ok entry.2)) member
  obtain ⟨⟨name, text⟩, found, hsame⟩ := List.mem_map.1 hmapped
  obtain ⟨rfl, hdecode⟩ := Prod.mk.inj hsame
  exact ⟨text, found, hdecode⟩

/-- One text that can not be read fails the texts that it is among. -/
theorem decodeEntries_cut (h : Reads texts entries) (hbad : decode text = .error error)
    (behind : List (String × String)) :
    decodeEntries (texts ++ (key, text) :: behind) = .error error := by
  induction texts generalizing entries with
  | nil => simp only [List.nil_append, decodeEntries, hbad]
  | cons head rest ih =>
    cases entries with
    | nil => cases h
    | cons entry entries =>
      rw [Reads, List.map_cons, List.map_cons, List.cons.injEq, Prod.mk.injEq] at h
      simp only [List.cons_append, decodeEntries, h.1.2, ih h.2]

/-- What stands before the first text that can not be read, that text, and what stands behind it. -/
theorem CutAt.split {index : Nat} (h : store.CutAt index error) :
    ∃ texts entries key text behind, store.objects.entries = texts ++ (key, text) :: behind ∧
      texts.length = index ∧ Reads texts entries ∧ decode text = .error error := by
  obtain ⟨⟨key, hkey, hget⟩, hreadable⟩ := h
  let all := store.objects.entries
  have hfound (i : Nat) (entry : String × String) (hentry : all[i]? = some entry) :
      store.keys[i]? = some entry.1 ∧ store.objects.get? entry.1 = some entry.2 := by
    refine ⟨?_, (store.objects.mem_entries_iff _ _).1 (List.mem_of_getElem? hentry)⟩
    rw [ObjectStore.keys, KeyMap.keys, List.getElem?_map, hentry, Option.map_some]
  have hindex : index < all.length := by
    obtain ⟨hless, -⟩ := List.getElem?_eq_some_iff.1 hkey
    rwa [ObjectStore.keys, KeyMap.keys, List.length_map] at hless
  have hbad : decode all[index].2 = .error error := by
    obtain ⟨hname, htext⟩ := hfound index _ (List.getElem?_eq_getElem hindex)
    rw [hkey, Option.some.injEq] at hname
    exact (get_eq_error_iff htext).1 (hname ▸ hget)
  have hgood (entry) (member : entry ∈ all.take index) :
      ∃ document, decode entry.2 = .ok document := by
    obtain ⟨i, hi, hentry⟩ := List.getElem_of_mem member
    rw [List.length_take] at hi
    have hat : all[i]? = some entry := by
      rw [← hentry, List.getElem_take, List.getElem?_eq_getElem]
    obtain ⟨hname, htext⟩ := hfound i entry hat
    obtain ⟨document, hdocument⟩ := hreadable i (by omega) entry.1 hname
    exact ⟨document, (get_eq_some_iff htext).1 hdocument⟩
  obtain ⟨entries, hentries⟩ := exists_reads hgood
  refine ⟨all.take index, entries, all[index].1, all[index].2, all.drop (index + 1), ?_, ?_,
    hentries, hbad⟩
  · exact (List.take_append_drop index all).symm.trans
      (congrArg (all.take index ++ ·) (List.drop_eq_getElem_cons hindex))
  · exact List.length_take_of_le (Nat.le_of_lt hindex)

end ObjectStore

namespace Paging

open ObjectStore (Reads)

/-- Polls give these items one after the other and leave this walk. -/
inductive Yields (store : ObjectStore) : Paging → List StoreItem → Paging → Prop
  | nil (paging : Paging) : Yields store paging [] paging
  | cons {paging next last : Paging} {item : StoreItem} {items : List StoreItem} :
    paging.poll store = (some item, next) → Yields store next items last →
      Yields store paging (item :: items) last

/-- No page is read any more and nothing is left of the last one. -/
structure Over (paging : Paging) : Prop where
  buffer : paging.buffer = []
  done : paging.done = true

variable {store : ObjectStore} {paging next last : Paging} {items items' : List StoreItem}
  {texts behind : List (String × String)} {entries page : List (String × Document)}
  {key text : String} {error : DbError}

theorem Over.poll (h : paging.Over) (store : ObjectStore) : paging.poll store = (none, paging) := by
  have hneeds : paging.needsPage = false := by simp [needsPage, h.done]
  simp only [Paging.poll, hneeds, takeBuffered, h.buffer, Bool.false_eq_true, ↓reduceIte]

/-! ### What polls give -/

theorem Yields.append (h : Yields store paging items next) (h' : Yields store next items' last) :
    Yields store paging (items ++ items') last := by
  induction h with
  | nil => exact h'
  | cons hpoll _ ih => exact .cons hpoll (ih h')

/-- Walks that give the same at the next poll give the same from there on. -/
theorem Yields.of_poll_eq (hpoll : paging.poll store = next.poll store) (hitems : items ≠ [])
    (h : Yields store next items last) : Yields store paging items last := by
  cases h with
  | nil => exact absurd rfl hitems
  | cons hfirst hrest => exact .cons (hpoll.trans hfirst) hrest

theorem Yields.takeItems (h : Yields store paging items last) (hover : last.Over) (count : Nat) :
    (takeItems store count paging).1 = items.take count := by
  induction h generalizing count with
  | nil =>
    cases count with
    | zero => rfl
    | succ => rw [Paging.takeItems, hover.poll, List.take_nil]
  | cons hpoll _ ih =>
    cases count with
    | zero => rfl
    | succ count => rw [Paging.takeItems, hpoll, List.take_succ_cons, ← ih hover count]

theorem Over.items_polls (h : paging.Over) (store : ObjectStore) (count : Nat) :
    (paging.polls store (List.replicate count .poll)).map (·.item) = List.replicate count none := by
  induction count with
  | zero => rfl
  | succ count ih =>
    rw [List.replicate_succ, polls, List.map_cons, h.poll, ih, List.replicate_succ]

theorem Yields.items_polls (h : Yields store paging items last) (hover : last.Over) (count : Nat) :
    (paging.polls store (List.replicate count .poll)).map (·.item) =
      (items.map some).take count ++ List.replicate (count - items.length) none := by
  induction h generalizing count with
  | nil => simpa using hover.items_polls store count
  | cons hpoll _ ih =>
    cases count with
    | zero => simp [polls]
    | succ count =>
      rw [List.replicate_succ, polls, List.map_cons, hpoll, ih hover count]
      simp

/-! ### Pages -/

/-- What is in the buffer is given out without looking at the store. -/
theorem yields_buffer (store : ObjectStore) (paging : Paging) :
    Yields store paging (paging.buffer.map .ok) { paging with buffer := [] } := by
  obtain ⟨cursor, buffer, done⟩ := paging
  induction buffer with
  | nil => exact .nil _
  | cons entry rest ih => exact .cons rfl ih

theorem poll_eq_received (hneeds : paging.needsPage = true)
    (hpage : store.pageAfter paging.cursor pageSize = .ok page) :
    paging.poll store = (paging.received page).poll store := by
  simp only [poll, hneeds, hpage, needsPage_received, Bool.false_eq_true, ↓reduceIte]

/-- A page of full length is given out whole, and the next one begins behind it. -/
theorem yields_page (hbuffer : paging.buffer = []) (hdone : paging.done = false)
    (hafter : store.objects.after paging.cursor = texts ++ behind)
    (hlength : texts.length = pageSize) (hreads : Reads texts entries) :
    ∃ next : Paging, Yields store paging (entries.map .ok) next ∧ next.buffer = [] ∧
      next.done = false ∧ store.objects.after next.cursor = behind := by
  have hneeds : paging.needsPage = true := by simp [needsPage, hbuffer, hdone]
  have hpage : store.pageAfter paging.cursor pageSize = .ok entries := by
    have htake : (texts ++ behind).take (max pageSize 1) = texts := by
      rw [show max pageSize 1 = texts.length by rw [hlength]; rfl, List.take_left]
    rw [ObjectStore.pageAfter, hafter, htake, ObjectStore.decodeEntries_eq hreads]
  have hentries : entries.length = pageSize := hreads.length_eq.symm.trans hlength
  have hsome : texts ≠ [] := List.ne_nil_of_length_pos (hlength ▸ by decide)
  have hnonempty : entries.map (.ok : String × Document → StoreItem) ≠ [] :=
    List.ne_nil_of_length_pos (by rw [List.length_map, hentries]; decide)
  refine ⟨{ paging.received entries with buffer := [] },
    (yields_buffer store (paging.received entries)).of_poll_eq (poll_eq_received hneeds hpage)
      hnonempty, rfl, ?_, ?_⟩
  · simp [received, hentries]
  · have hlast : entries.getLast?.map (·.1) = some (texts.getLast hsome).1 := by
      rw [← List.getLast?_map, ← hreads.names, List.getLast?_map,
        List.getLast?_eq_some_getLast hsome, Option.map_some]
    have hsplit : store.objects.after paging.cursor =
        texts.dropLast ++ texts.getLast hsome :: behind := by
      rw [hafter, List.append_cons, List.dropLast_concat_getLast hsome]
    simp only [received, hlast, Option.some_or]
    exact store.objects.after_of_split hsplit

/-- The page that a text stands on fails if the text can not be read and those before it can. -/
theorem yields_failure (hbuffer : paging.buffer = []) (hdone : paging.done = false)
    (hafter : store.objects.after paging.cursor = texts ++ (key, text) :: behind)
    (hlength : texts.length < pageSize) (hreads : Reads texts entries)
    (hbad : ObjectStore.decode text = .error error) :
    ∃ last : Paging, Yields store paging [.error error] last ∧ last.Over := by
  have hneeds : paging.needsPage = true := by simp [needsPage, hbuffer, hdone]
  have hpage : store.pageAfter paging.cursor pageSize = .error error := by
    obtain ⟨room, hroom⟩ : ∃ room, pageSize - texts.length = room + 1 :=
      Nat.exists_eq_succ_of_ne_zero (Nat.sub_ne_zero_of_lt hlength)
    have htake : (texts ++ (key, text) :: behind).take (max pageSize 1) =
        texts ++ (key, text) :: behind.take room := by
      rw [show max pageSize 1 = pageSize from rfl, List.take_append,
        List.take_of_length_le (Nat.le_of_lt hlength), hroom, List.take_succ_cons]
    rw [ObjectStore.pageAfter, hafter, htake, ObjectStore.decodeEntries_cut hreads hbad]
  refine ⟨{ paging with done := true }, .cons ?_ (.nil _), hbuffer, rfl⟩
  simp only [poll, hneeds, hpage, ↓reduceIte]

/-- The whole pages before a text that can not be read are given out, then its error. The induction
is on the number of these pages. -/
theorem yields_cut {pages : Nat} (hbuffer : paging.buffer = []) (hdone : paging.done = false)
    (hafter : store.objects.after paging.cursor = texts ++ (key, text) :: behind)
    (hpages : texts.length / pageSize = pages) (hreads : Reads texts entries)
    (hbad : ObjectStore.decode text = .error error) :
    ∃ last : Paging,
      Yields store paging ((entries.take (pageSize * pages)).map .ok ++ [.error error]) last ∧
        last.Over := by
  have hpositive : 0 < pageSize := by decide
  induction pages generalizing paging texts entries with
  | zero =>
    have hlength : texts.length < pageSize :=
      (Nat.div_eq_zero_iff_lt hpositive).1 hpages
    exact yields_failure hbuffer hdone hafter hlength hreads hbad
  | succ pages ih =>
    have hfull : pageSize ≤ texts.length := by
      by_contra hshort
      rw [Nat.div_eq_of_lt (Nat.lt_of_not_le hshort)] at hpages
      cases hpages
    have hsplit : store.objects.after paging.cursor =
        texts.take pageSize ++ (texts.drop pageSize ++ (key, text) :: behind) := by
      rw [hafter, ← List.append_assoc, List.take_append_drop]
    obtain ⟨next, hpage, hbuffer', hdone', hafter'⟩ :=
      yields_page hbuffer hdone hsplit (List.length_take_of_le hfull) (hreads.take pageSize)
    have hrest : (texts.drop pageSize).length / pageSize = pages := by
      rw [List.length_drop, ← Nat.add_sub_cancel (n := pages) (m := 1), ← hpages]
      exact Nat.sub_mul_div texts.length pageSize 1
    obtain ⟨last, hlater, hover⟩ :=
      ih hbuffer' hdone' hafter' hrest (hreads.drop pageSize)
    refine ⟨last, ?_, hover⟩
    have htake : entries.take (pageSize * (pages + 1)) =
        entries.take pageSize ++ (entries.drop pageSize).take (pageSize * pages) := by
      rw [Nat.mul_succ, Nat.add_comm, List.take_add]
    rw [htake, List.map_append, List.append_assoc]
    exact hpage.append hlater

/-! ### Walks from the beginning -/

/-- What a walk gives out before it comes to a text that can not be read. -/
structure GivesUntil (store : ObjectStore) (index : Nat) (entries : List (String × Document)) :
    Prop where
  names : entries.map (·.1) = store.keys.take (64 * (index / 64))
  documents : ∀ entry ∈ entries, store.get entry.1 = .ok (some entry.2)

/-- A walk from the beginning gives out the whole pages before the first text that can not be read,
then its error, and then it is over. -/
theorem yields_of_cutAt {index : Nat} (h : store.CutAt index error) :
    ∃ entries last, GivesUntil store index entries ∧
      Yields store fresh (entries.map .ok ++ [.error error]) last ∧ last.Over := by
  obtain ⟨texts, entries, key, text, behind, hall, hlength, hreads, hbad⟩ := h.split
  obtain ⟨last, hyields, hover⟩ :=
    yields_cut (show fresh.buffer = [] from rfl) rfl hall rfl hreads hbad
  rw [hlength] at hyields
  refine ⟨_, last, ⟨?_, fun entry member => ?_⟩, hyields, hover⟩
  · have hwithin : 64 * (index / 64) ≤ texts.length := hlength ▸ Nat.mul_div_le index 64
    rw [ObjectStore.keys, KeyMap.keys, hall, List.map_append, List.map_take, ← hreads.names,
      List.take_append_of_le_length (by rwa [List.length_map])]
    rfl
  · obtain ⟨text', found, hdecode⟩ := hreads.mem (List.mem_of_mem_take member)
    have hentry : (entry.1, text') ∈ store.objects.entries := by
      rw [hall]
      exact List.mem_append_left _ found
    exact (ObjectStore.get_eq_some_iff ((store.objects.mem_entries_iff _ _).1 hentry)).2 hdecode

end Paging

end DocumentServer
