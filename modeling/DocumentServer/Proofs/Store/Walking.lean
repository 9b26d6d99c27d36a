import DocumentServer.Proofs.Bytes
import DocumentServer.Proofs.Store.Keeping
import DocumentServer.Store.Call
import Mathlib.Data.List.Nodup

/-! Walks through a store that changes meanwhile. What a walk has in its buffer lies no further than
its cursor, and a page holds what lies behind the cursor at that moment, so the names that are given
out ascend whatever happens to the store. A document that stays is either in the buffer or still
behind the cursor until it is given out, and the walk can not end before that. -/
namespace DocumentServer.Paging

open KeyMap (Behind mem_after)

inductive Event where
  | poll
  /-- A call on the store, such as one that puts or drops a document. -/
  | call (call : StoreCall)

structure Polled where
  store : ObjectStore
  paging : Paging
  item : Option StoreItem

def Polled.found? (polled : Polled) : Option (String × Document) :=
  polled.item.bind Except.toOption

def polls (paging : Paging) (store : ObjectStore) : List Event → List Polled
  | [] => []
  | .poll :: rest =>
    ⟨store, paging, (paging.poll store).1⟩ :: (paging.poll store).2.polls store rest
  | .call call :: rest => paging.polls (store.call call).2 rest

variable {paging : Paging} {store : ObjectStore} {documents : KeyMap Document}
  {entry given : String × Document}

/-! ### Buffer and cursor -/

/-- The names in the buffer ascend, and none of them lies behind the cursor. -/
structure Ordered (paging : Paging) : Prop where
  ascending : Ascending paging.buffer
  reached : ∀ entry ∈ paging.buffer, ¬ Behind paging.cursor entry.1

/-- A walk may still give out an entry: it is in the buffer, or pages are read behind a cursor that
it lies behind. -/
def Pending (paging : Paging) (entry : String × Document) : Prop :=
  entry ∈ paging.buffer ∨ paging.done = false ∧ Behind paging.cursor entry.1

/-- A document for which `Q` holds is given out under a name, unless it goes away: it is in the
buffer, or pages are read behind a cursor that the name lies behind. -/
def Awaits (paging : Paging) (Q : Document → Prop) (key : String) : Prop :=
  (∃ value, Q value ∧ (key, value) ∈ paging.buffer) ∨
    paging.done = false ∧ Behind paging.cursor key

theorem ordered_fresh : Ordered fresh := ⟨.nil, fun _ h => nomatch h⟩

theorem lt_of_behind {cursor : Option String} {key key' : String} (h : ¬ Behind cursor key)
    (h' : Behind cursor key') : key < key' := by
  simp only [Behind, not_forall] at h
  obtain ⟨last, hlast, hreached⟩ := h
  exact Std.lt_of_le_of_lt (String.not_lt.1 hreached) (h' last hlast)

theorem mem_rest_iff :
    entry ∈ paging.rest documents ↔ entry ∈ paging.buffer ∨
      paging.done = false ∧ entry ∈ documents.entries ∧ Behind paging.cursor entry.1 := by
  rw [rest, List.mem_append]
  cases paging.done with
  | true => simp
  | false => simp [KeyMap.mem_after]

/-- The last entry of a page has the greatest name. -/
theorem exists_greatest {page : List (String × Document)} (hascending : Ascending page)
    (hpage : page ≠ []) :
    ∃ last ∈ page, page.getLast? = some last ∧ ∀ entry ∈ page, ¬ last.1 < entry.1 := by
  refine ⟨page.getLast hpage, List.getLast_mem hpage, List.getLast?_eq_some_getLast hpage, ?_⟩
  intro entry member
  rw [← List.dropLast_concat_getLast hpage] at hascending member
  obtain ⟨-, -, hbefore⟩ := List.pairwise_append.1 hascending
  rcases List.mem_append.1 member with member | member
  · exact String.lt_asymm (hbefore entry member _ List.mem_cons_self)
  · rw [List.mem_singleton.1 member]
    exact String.lt_irrefl _

/-- A page moves the cursor to its last name, which lies behind the old cursor. -/
theorem cursor_received {page : List (String × Document)} (hascending : Ascending page)
    (hbehind : ∀ entry ∈ page, Behind paging.cursor entry.1) :
    (∀ entry ∈ page, ¬ Behind (paging.received page).cursor entry.1) ∧
      ∀ key, Behind (paging.received page).cursor key → Behind paging.cursor key := by
  by_cases hpage : page = []
  · subst hpage
    exact ⟨nofun, fun _ h => h⟩
  · obtain ⟨last, hmember, hlast, hgreatest⟩ := exists_greatest hascending hpage
    have hcursor : (paging.received page).cursor = some last.1 := by simp [received, hlast]
    rw [hcursor]
    refine ⟨fun entry member h => hgreatest entry member (h _ rfl), fun key h old hold => ?_⟩
    exact String.lt_trans (hbehind last hmember old hold) (h _ rfl)

theorem mem_refilled (h : entry ∈ (paging.refilled documents).buffer) :
    entry ∈ paging.buffer ∨ paging.needsPage = true ∧ entry ∈ documents.entries ∧
      Behind paging.cursor entry.1 := by
  unfold refilled at h
  split at h
  next hneeds => exact .inr ⟨hneeds, (mem_after _).1 (List.mem_of_mem_take h)⟩
  next => exact .inl h

theorem refilled_spec (h : paging.Ordered) (documents : KeyMap Document) :
    (paging.refilled documents).Ordered ∧
      ∀ entry, (paging.refilled documents).Pending entry → paging.Pending entry := by
  unfold refilled
  cases hneeds : paging.needsPage with
  | false => exact ⟨h, fun _ h => h⟩
  | true =>
    obtain ⟨-, hdone⟩ := needsPage_eq_true hneeds
    have hascending : Ascending ((documents.after paging.cursor).take pageSize) :=
      (documents.ascending_after paging.cursor).sublist (List.take_sublist ..)
    have hbehind (entry) (member : entry ∈ (documents.after paging.cursor).take pageSize) :=
      ((mem_after _).1 (List.mem_of_mem_take member)).2
    obtain ⟨hreached, hcursor⟩ := cursor_received hascending hbehind
    refine ⟨⟨hascending, hreached⟩, fun entry hpending => .inr ⟨hdone, ?_⟩⟩
    rcases hpending with member | ⟨-, h⟩
    · exact hbehind entry member
    · exact hcursor _ h

theorem takeBuffered_spec (h : paging.Ordered) :
    paging.takeBuffered.2.Ordered ∧
      (∀ entry, paging.takeBuffered.2.Pending entry → paging.Pending entry) ∧
      ∀ given, paging.takeBuffered.1 = some (.ok given) → given ∈ paging.buffer ∧
        ∀ entry, paging.takeBuffered.2.Pending entry → given.1 < entry.1 := by
  obtain ⟨hascending, hreached⟩ := h
  rcases paging with ⟨cursor, buffer, done⟩
  cases buffer with
  | nil => exact ⟨⟨hascending, hreached⟩, fun _ h => h, nofun⟩
  | cons first buffer =>
    obtain ⟨hfirst, hbuffer⟩ := List.pairwise_cons.1 hascending
    refine ⟨⟨hbuffer, fun entry member => hreached entry (List.mem_cons_of_mem _ member)⟩,
      fun entry => Or.imp_left (List.mem_cons_of_mem _), ?_⟩
    intro given hgiven
    obtain rfl : first = given := by simpa [takeBuffered] using hgiven
    refine ⟨List.mem_cons_self, fun entry hpending => ?_⟩
    rcases hpending with member | ⟨-, h⟩
    · exact hfirst entry member
    · exact lt_of_behind (hreached first List.mem_cons_self) h

/-! ### One poll -/

/-- A poll gives out an entry that was pending, and those that are pending afterwards have greater
names. -/
theorem poll_spec (h : store.Shows documents) (hordered : paging.Ordered) :
    (paging.poll store).2.Ordered ∧
      (∀ entry, (paging.poll store).2.Pending entry → paging.Pending entry) ∧
      ∀ given, (paging.poll store).1 = some (.ok given) → paging.Pending given ∧
        ∀ entry, (paging.poll store).2.Pending entry → given.1 < entry.1 := by
  rw [poll_eq_takeBuffered h]
  obtain ⟨hrefilled, hpending⟩ := refilled_spec hordered documents
  obtain ⟨htaken, hkept, hgiven⟩ := takeBuffered_spec hrefilled
  refine ⟨htaken, fun entry h => hpending entry (hkept entry h), fun given h => ?_⟩
  obtain ⟨member, hless⟩ := hgiven given h
  exact ⟨hpending given (.inl member), hless⟩

/-- A poll gives out the document that is awaited, if the store has one, or another document before
it. -/
theorem Awaits.poll {Q : Document → Prop} {key : String} (hawaits : paging.Awaits Q key)
    (h : store.Shows documents) (hfound : ∃ value, Q value ∧ store.get key = .ok (some value)) :
    ∃ given, (paging.poll store).1 = some (.ok given) ∧
      (given.1 = key ∧ Q given.2 ∨ (paging.poll store).2.Awaits Q key) := by
  obtain ⟨hitem, hrest⟩ := poll_eq h paging
  have hwaiting : ∃ value, Q value ∧ (key, value) ∈ paging.rest documents := by
    rcases hawaits with ⟨value, hvalue, member⟩ | ⟨hdone, hbehind⟩
    · exact ⟨value, hvalue, mem_rest_iff.2 (.inl member)⟩
    · obtain ⟨value, hvalue, hget⟩ := hfound
      rw [h.get, Except.ok.injEq] at hget
      have member := (documents.mem_entries_iff _ _).2 hget
      exact ⟨value, hvalue, mem_rest_iff.2 (.inr ⟨hdone, member, hbehind⟩)⟩
  obtain ⟨value, hvalue, member⟩ := hwaiting
  cases hall : paging.rest documents with
  | nil =>
    rw [hall] at member
    cases member
  | cons given waiting =>
    rw [hall] at hitem hrest member
    refine ⟨given, hitem, ?_⟩
    rcases List.mem_cons.1 member with rfl | member
    · exact .inl ⟨rfl, hvalue⟩
    · rw [List.tail_cons] at hrest
      rw [← hrest] at member
      rcases mem_rest_iff.1 member with member | ⟨hdone, -, hbehind⟩
      · exact .inr (.inl ⟨value, hvalue, member⟩)
      · exact .inr (.inr ⟨hdone, hbehind⟩)

/-- What a poll gives out or leaves in the buffer was there before, or was read by this poll. -/
theorem mem_of_poll (h : store.Shows documents)
    (hentry : (paging.poll store).1 = some (.ok entry) ∨ entry ∈ (paging.poll store).2.buffer) :
    entry ∈ paging.buffer ∨
      paging.needsPage = true ∧ store.get entry.1 = .ok (some entry.2) := by
  rw [poll_eq_takeBuffered h] at hentry
  have member : entry ∈ (paging.refilled documents).buffer := by
    rcases hbuffer : (paging.refilled documents).buffer with _ | ⟨first, buffer⟩
    · simp [takeBuffered, hbuffer] at hentry
    · simpa [takeBuffered, hbuffer, eq_comm] using hentry
  rcases mem_refilled member with hold | ⟨hneeds, hread, -⟩
  · exact .inl hold
  · exact .inr ⟨hneeds, by rw [h.get, (documents.mem_entries_iff _ _).1 hread]⟩

/-! ### Whole walks -/

section Polls

variable {events : List Event}

theorem item_eq (hlegible : ∀ polled ∈ paging.polls store events, polled.store.Legible) :
    ∀ polled ∈ paging.polls store events, polled.item = polled.found?.map .ok := by
  induction events generalizing paging store with
  | nil => exact fun _ h => nomatch h
  | cons event rest ih =>
    cases event with
    | call call => exact ih hlegible
    | poll =>
      obtain ⟨hnow, hlater⟩ := List.forall_mem_cons.1 hlegible
      obtain ⟨documents, hshows⟩ := hnow.exists_shows
      refine List.forall_mem_cons.2 ⟨?_, ih hlater⟩
      have hitem := (poll_eq hshows paging).1
      simp only [Polled.found?, hitem]
      cases (paging.rest documents).head? <;> rfl

/-- The names that a walk gives out ascend, and the entries were pending when it began. -/
theorem ascending_entries (hordered : paging.Ordered)
    (hlegible : ∀ polled ∈ paging.polls store events, polled.store.Legible) :
    Ascending ((paging.polls store events).filterMap (·.found?)) ∧
      ∀ entry ∈ (paging.polls store events).filterMap (·.found?), paging.Pending entry := by
  induction events generalizing paging store with
  | nil => exact ⟨.nil, fun _ h => nomatch h⟩
  | cons event rest ih =>
    cases event with
    | call call => exact ih hordered hlegible
    | poll =>
      obtain ⟨hnow, hlater⟩ := List.forall_mem_cons.1 hlegible
      obtain ⟨documents, hshows⟩ := hnow.exists_shows
      obtain ⟨hafter, hkept, hgiven⟩ := poll_spec hshows hordered
      obtain ⟨hascending, hpending⟩ := ih hafter hlater
      have hitem := (poll_eq hshows paging).1
      cases hhead : (paging.rest documents).head? with
      | none =>
        rw [hhead] at hitem
        rw [polls, List.filterMap_cons_none (by simp [Polled.found?, hitem])]
        exact ⟨hascending, fun entry member => hkept entry (hpending entry member)⟩
      | some given =>
        rw [hhead] at hitem
        obtain ⟨hfirst, hless⟩ := hgiven given hitem
        rw [polls, List.filterMap_cons_some (b := given)
          (by simp [Polled.found?, hitem, Except.toOption])]
        refine ⟨List.pairwise_cons.2 ⟨fun entry member => hless entry (hpending entry member),
          hascending⟩, List.forall_mem_cons.2 ⟨hfirst, fun entry member => ?_⟩⟩
        exact hkept entry (hpending entry member)

/-- A walk does not end before it gave out a document that it finds at every poll. -/
theorem exists_entry {Q : Document → Prop} {key : String} (hawaits : paging.Awaits Q key)
    (hlegible : ∀ polled ∈ paging.polls store events, polled.store.Legible)
    (hpresent : ∀ polled ∈ paging.polls store events,
      ∃ value, Q value ∧ polled.store.get key = .ok (some value))
    (hended : ∃ polled ∈ paging.polls store events, polled.item = none) :
    ∃ value, Q value ∧ (key, value) ∈ (paging.polls store events).filterMap (·.found?) := by
  induction events generalizing paging store with
  | nil =>
    obtain ⟨_, h, -⟩ := hended
    cases h
  | cons event rest ih =>
    cases event with
    | call call => exact ih hawaits hlegible hpresent hended
    | poll =>
      obtain ⟨hnow, hlater⟩ := List.forall_mem_cons.1 hlegible
      obtain ⟨hfound, hpresent⟩ := List.forall_mem_cons.1 hpresent
      obtain ⟨documents, hshows⟩ := hnow.exists_shows
      obtain ⟨given, hitem, hgiven⟩ := hawaits.poll hshows hfound
      rw [polls, List.filterMap_cons_some (b := given)
        (by simp [Polled.found?, hitem, Except.toOption])]
      rcases hgiven with ⟨rfl, hvalue⟩ | hawaits
      · exact ⟨given.2, hvalue, List.mem_cons_self⟩
      · have hended : ∃ polled ∈ (paging.poll store).2.polls store rest, polled.item = none := by
          obtain ⟨polled, hpolled, hnone⟩ := hended
          rcases List.mem_cons.1 hpolled with rfl | hpolled
          · simp [hitem] at hnone
          · exact ⟨polled, hpolled, hnone⟩
        obtain ⟨value, hvalue, member⟩ := ih hawaits hlater hpresent hended
        exact ⟨value, hvalue, List.mem_cons_of_mem _ member⟩

/-- An entry that a walk gives out stood in the store when a page was read, unless it was in the
buffer from the beginning. -/
theorem read_of_item (hlegible : ∀ polled ∈ paging.polls store events, polled.store.Legible)
    {i : Nat} {polled : Polled} (hpolled : (paging.polls store events)[i]? = some polled)
    (hitem : polled.item = some (.ok entry)) :
    entry ∈ paging.buffer ∨ ∃ j ≤ i, ∃ page, (paging.polls store events)[j]? = some page ∧
      page.paging.needsPage = true ∧ page.store.get entry.1 = .ok (some entry.2) := by
  induction events generalizing paging store i with
  | nil => cases hpolled
  | cons event rest ih =>
    cases event with
    | call call => exact ih hlegible hpolled
    | poll =>
      obtain ⟨hnow, hlater⟩ := List.forall_mem_cons.1 hlegible
      obtain ⟨documents, hshows⟩ := hnow.exists_shows
      -- What this poll gives or leaves in the buffer was read by it, if it was not there before.
      have hread (hentry : (paging.poll store).1 = some (.ok entry) ∨
          entry ∈ (paging.poll store).2.buffer) : entry ∈ paging.buffer ∨
            ∃ j ≤ i, ∃ page, (paging.polls store (.poll :: rest))[j]? = some page ∧
              page.paging.needsPage = true ∧ page.store.get entry.1 = .ok (some entry.2) :=
        (mem_of_poll hshows hentry).imp_right fun ⟨hneeds, hget⟩ =>
          ⟨0, Nat.zero_le i, _, rfl, hneeds, hget⟩
      cases i with
      | zero =>
        obtain rfl := Option.some.inj hpolled
        exact hread (.inl hitem)
      | succ i =>
        rcases ih hlater hpolled with member | ⟨j, hj, page, hpage, hneeds, hget⟩
        · exact hread (.inr member)
        · exact .inr ⟨j + 1, Nat.succ_le_succ hj, page, hpage, hneeds, hget⟩

end Polls

/-- A walk through a store that does not change gives out what is left of it, and then nothing. -/
theorem polls_replicate (h : store.Shows documents) (count : Nat) (paging : Paging) :
    (paging.polls store (List.replicate count .poll)).map (·.item) =
      ((paging.rest documents).map fun entry => some (.ok entry)).take count ++
        List.replicate (count - (paging.rest documents).length) none := by
  induction count generalizing paging with
  | zero => simp [polls]
  | succ count ih =>
    obtain ⟨hitem, hrest⟩ := poll_eq h paging
    rw [List.replicate_succ, polls, List.map_cons, ih, hrest, hitem]
    cases paging.rest documents with
    | nil => simp [List.replicate_succ]
    | cons given waiting => simp

/-! ### Walks from the beginning -/

/-- What a walk gives out, as its polls show. -/
structure Gives (polls : List Polled) (entries : List (String × Document)) : Prop where
  items : polls.filterMap (·.item) = entries.map .ok
  /-- Names ascend by their bytes, so none comes twice. -/
  ascending : entries.Pairwise fun a b => Bytes.ofString a.1 < Bytes.ofString b.1
  /-- A name that every poll finds is given out once. -/
  present : ∀ key, (∀ polled ∈ polls, polled.store.contains key = true) →
    (entries.map (·.1)).count key = 1
  /-- If every poll finds the same document under it, it is given out with that document. -/
  unchanged : ∀ key value, (∀ polled ∈ polls, polled.store.get key = .ok (some value)) →
    (key, value) ∈ entries
  /-- What a poll gives stood in the store when that poll or one before it read a page. -/
  read : ∀ (i : Nat) (polled : Polled) (key : String) (value : Document), polls[i]? = some polled →
    polled.item = some (.ok (key, value)) → ∃ j ≤ i, ∃ page : Polled, polls[j]? = some page ∧
      page.paging.needsPage = true ∧ page.store.get key = .ok (some value)

section Walk

variable {events : List Event}
  (hlegible : ∀ polled ∈ fresh.polls store events, polled.store.Legible)
  (hended : ∃ polled ∈ fresh.polls store events, polled.item = none)

include hlegible hended

/-- A walk that ended gave out a name that it found at every poll. -/
theorem exists_of_present {Q : Document → Prop} {key : String}
    (hpresent : ∀ polled ∈ fresh.polls store events,
      ∃ value, Q value ∧ polled.store.get key = .ok (some value)) :
    ∃ value, Q value ∧ (key, value) ∈ (fresh.polls store events).filterMap (·.found?) :=
  exists_entry (.inr ⟨rfl, fun _ h => nomatch h⟩) hlegible hpresent hended

theorem gives_entries :
    Gives (fresh.polls store events) ((fresh.polls store events).filterMap (·.found?)) := by
  obtain ⟨hascending, -⟩ := ascending_entries ordered_fresh hlegible
  constructor
  case items =>
    rw [List.map_filterMap]
    exact List.filterMap_congr fun polled member => item_eq hlegible polled member
  case ascending => exact hascending.imp fun hless => (Bytes.ofString_lt_iff _ _).2 hless
  case present =>
    intro key hpresent
    have hfound : ∀ polled ∈ fresh.polls store events,
        ∃ value, True ∧ polled.store.get key = .ok (some value) := by
      intro polled member
      obtain ⟨documents, hshows⟩ := (hlegible polled member).exists_shows
      have hcontains := hpresent polled member
      rw [hshows.contains] at hcontains
      obtain ⟨value, hvalue⟩ := Option.isSome_iff_exists.1 hcontains
      exact ⟨value, trivial, by rw [hshows.get, hvalue]⟩
    obtain ⟨value, -, member⟩ := exists_of_present hlegible hended hfound
    have hnodup : (((fresh.polls store events).filterMap (·.found?)).map (·.1)).Nodup :=
      List.pairwise_map.2 (hascending.imp String.ne_of_lt)
    exact List.count_eq_one_of_mem hnodup (List.mem_map_of_mem member)
  case unchanged =>
    intro key value hunchanged
    obtain ⟨_, rfl, member⟩ := exists_of_present (Q := (· = value)) hlegible hended
      fun polled member => ⟨value, rfl, hunchanged polled member⟩
    exact member
  case read =>
    intro i polled key value hpolled hitem
    exact (read_of_item hlegible hpolled hitem).resolve_left List.not_mem_nil

end Walk

/-- Whatever is put and dropped while a walk goes on, the walk gives out, up to its end, ascending
names and among them those that stay, each with a document that was there. If nothing changes, it
gives out the entries of the store and then ends. -/
theorem walk_gives (h : store.Legible) (events : List Event) :
    ((∀ polled ∈ fresh.polls store events, polled.store.Legible) →
      (∃ polled ∈ fresh.polls store events, polled.item = none) →
      ∃ entries, Gives (fresh.polls store events) entries) ∧
    ∃ entries : List (String × Document), entries.map (·.1) = store.keys ∧
      (∀ entry ∈ entries, store.get entry.1 = .ok (some entry.2)) ∧
      (fresh.polls store (List.replicate (store.size + 1) .poll)).map (·.item) =
        entries.map (fun entry => some (.ok entry)) ++ [none] := by
  refine ⟨fun hlegible hended => ⟨_, gives_entries hlegible hended⟩, ?_⟩
  obtain ⟨documents, hshows⟩ := h.exists_shows
  have hall : documents.entries.length = documents.size := rfl
  refine ⟨documents.entries, hshows.keys.symm, fun entry member => ?_, ?_⟩
  · rw [hshows.get, (documents.mem_entries_iff _ _).1 member]
  · rw [polls_replicate hshows, rest_fresh, hshows.size, hall,
      List.take_of_length_le (by simp [hall]), Nat.add_sub_cancel_left, List.replicate_one]

/-- The document at the cursor is dropped and one is put before it; the walk goes on and ends. -/
theorem walk_gives_past_dropped_cursor :
    let store := (∅ : ObjectStore).put "b" .null
    let events := [Event.poll, .call (.delete "b"), .call (.set "a" .null), .poll]
    (∀ polled ∈ fresh.polls store events, polled.store.Legible) ∧
      ∃ entries, Gives (fresh.polls store events) entries := by
  intro store events
  have hnull : Document.Readable .null := ⟨.null, .null, by decide⟩
  have hfirst : store.Legible := (ObjectStore.keeps_empty.put hnull "b").shows.legible
  have hsecond : ((∅ : ObjectStore).put "a" .null).Legible :=
    (ObjectStore.keeps_empty.put hnull "a").shows.legible
  have hlegible : ∀ polled ∈ fresh.polls store events, polled.store.Legible :=
    List.forall_mem_cons.2 ⟨hfirst, List.forall_mem_singleton.2 hsecond⟩
  have hlast : (fresh.polls store events).getLast?.map (·.item) = some none := by rfl
  have hended : ∃ polled ∈ fresh.polls store events, polled.item = none := by
    obtain ⟨polled, hpolled, hnone⟩ := Option.map_eq_some_iff.1 hlast
    exact ⟨polled, List.mem_of_getLast? hpolled, hnone⟩
  exact ⟨hlegible, (walk_gives hfirst events).1 hlegible hended⟩

end DocumentServer.Paging
