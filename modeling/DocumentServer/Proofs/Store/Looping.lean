import DocumentServer.Proofs.Store.Cutting
import DocumentServer.Proofs.Store.Pages

/-! Polls turn by turn. A poll goes round a loop that gives out what is in the buffer and otherwise
reads a page and looks again. Nothing in the loop counts down: it ends because a page that leaves
the buffer empty is short, and no page is read after a short one. The turns of all polls together
are one trace, whatever happens to the store between them, and what each turn keeps the trace
keeps. -/
namespace DocumentServer.Paging

/-! ### Turns -/

inductive Act where
  /-- It gives out an entry of the buffer. -/
  | give (entry : String × Document)
  /-- It gives out the end. -/
  | stop
  /-- It puts a page into the buffer, and the loop goes on. -/
  | fill (page : List (String × Document))
  /-- It gives out why a page can not be read. -/
  | fail (error : DbError)

namespace Act

/-- What the poll gives, if the act ends it. -/
def item? : Act → Option (Option StoreItem)
  | give entry => some (some (.ok entry))
  | stop => some none
  | fill _ => none
  | fail error => some (some (.error error))

def reads : Act → Bool
  | give _ => false
  | stop => false
  | fill _ => true
  | fail _ => true

def names : Act → List String
  | fill page => page.map (·.1)
  | _ => []

/-- What the act adds to what is going to be given out. -/
def brings : Act → List (Option StoreItem)
  | give _ => []
  | stop => [none]
  | fill page => page.map fun entry => some (.ok entry)
  | fail error => [some (.error error)]

/-- A read that none follows, because the page came back short or failed, with what is given out of
it. -/
inductive Last : Act → List StoreItem → Prop
  | short {page : List (String × Document)} : page.length < 64 → Last (fill page) (page.map .ok)
  | failed (error : DbError) : Last (fail error) [.error error]

theorem Last.reads {act : Act} {items : List StoreItem} (h : act.Last items) :
    act.reads = true := by
  cases h <;> rfl

end Act

structure Turn where
  before : Paging
  act : Act
  after : Paging

def turn (paging : Paging) (store : ObjectStore) : Turn :=
  match paging.buffer with
  | entry :: rest => ⟨paging, .give entry, { paging with buffer := rest }⟩
  | [] =>
    if paging.done then ⟨paging, .stop, paging⟩
    else
      match store.pageAfter paging.cursor pageSize with
      | .ok page =>
        ⟨paging, .fill page, { paging.received page with buffer := paging.buffer ++ page }⟩
      | .error error => ⟨paging, .fail error, { paging with done := true }⟩

/-- The loop of a poll ends after these turns, with an item and the walk that it leaves. A loop that
goes on for ever has no such turns. -/
inductive Loops (store : ObjectStore) : Paging → List Turn → Option StoreItem × Paging → Prop
  | last {paging : Paging} {item : Option StoreItem} :
    (paging.turn store).act.item? = some item →
      Loops store paging [paging.turn store] (item, (paging.turn store).after)
  | again {paging : Paging} {turns : List Turn} {ending : Option StoreItem × Paging} :
    (paging.turn store).act.item? = none → Loops store (paging.turn store).after turns ending →
      Loops store paging (paging.turn store :: turns) ending

/-- The loop of a poll ends, after these turns and in no other way, as the poll does. -/
def EndsAfter (paging : Paging) (store : ObjectStore) (turns : List Turn) : Prop :=
  ∀ turns' ending, Loops store paging turns' ending ↔
    turns' = turns ∧ ending = paging.poll store

def given (turns : List Turn) : List (Option StoreItem) := turns.filterMap (·.act.item?)

def waiting (paging : Paging) : List (Option StoreItem) :=
  paging.buffer.map fun entry => some (.ok entry)

/-- The cursors that the turns find and leave. -/
def cursors (turns : List Turn) : List (Option String) :=
  turns.flatMap fun turn => [turn.before.cursor, turn.after.cursor]

/-- The second cursor stands no earlier than the first one. -/
def Within (cursor cursor' : Option String) : Prop :=
  ∀ last ∈ cursor, ∃ last' ∈ cursor', Bytes.ofString last ≤ Bytes.ofString last'

/-- The cursor stands at the greatest of the names by their bytes, or nowhere if there are none. -/
def StandsAt : Option String → List String → Prop
  | none, names => names = []
  | some last, names => last ∈ names ∧ ∀ name ∈ names, Bytes.ofString name ≤ Bytes.ofString last

variable {paging last : Paging} {store : ObjectStore} {turn : Turn} {turns : List Turn}
  {page : List (String × Document)} {names : List String}

/-! ### One turn -/

/-- What a turn can be. -/
inductive Made (store : ObjectStore) (paging : Paging) : Turn → Prop
  | give {entry : String × Document} {rest : List (String × Document)} :
    paging.buffer = entry :: rest →
      Made store paging ⟨paging, .give entry, { paging with buffer := rest }⟩
  | stop : paging.buffer = [] → paging.done = true → Made store paging ⟨paging, .stop, paging⟩
  | fill {page : List (String × Document)} : paging.needsPage = true →
    store.pageAfter paging.cursor pageSize = .ok page →
      Made store paging ⟨paging, .fill page, paging.received page⟩
  | fail {error : DbError} : paging.needsPage = true →
    store.pageAfter paging.cursor pageSize = .error error →
      Made store paging ⟨paging, .fail error, { paging with done := true }⟩

theorem made_turn (paging : Paging) (store : ObjectStore) :
    Made store paging (paging.turn store) := by
  rcases paging with ⟨cursor, buffer, done⟩
  cases buffer with
  | cons entry rest => exact .give rfl
  | nil =>
    cases done with
    | true => exact .stop rfl rfl
    | false =>
      unfold Paging.turn
      dsimp only
      cases hpage : store.pageAfter cursor pageSize with
      | ok page => exact .fill rfl hpage
      | error error => exact .fail rfl hpage

namespace Made

variable (h : Made store paging turn)

include h

theorem before_eq : turn.before = paging := by
  cases h <;> rfl

theorem needsPage_of_reads (hreads : turn.act.reads = true) : turn.before.needsPage = true := by
  cases h with
  | give => cases hreads
  | stop => cases hreads
  | fill hneeds => exact hneeds
  | fail hneeds => exact hneeds

theorem length_le (hlength : paging.buffer.length ≤ 64) : turn.after.buffer.length ≤ 64 := by
  cases h with
  | give hbuffer =>
    rw [hbuffer] at hlength
    exact Nat.le_of_succ_le hlength
  | stop => exact hlength
  | fill _ hpage =>
    have hlength := (ObjectStore.isPage_of_pageAfter (by decide) hpage).length_eq
    exact Nat.le_trans (Nat.le_of_eq hlength) (Nat.min_le_left ..)
  | fail => exact hlength

/-- What is given out and what waits then is what waited before and what was added to it. -/
theorem given_eq :
    turn.act.item?.toList ++ turn.after.waiting = paging.waiting ++ turn.act.brings := by
  cases h with
  | give hbuffer => simp [Act.item?, Act.brings, waiting, hbuffer]
  | stop hbuffer => simp [Act.item?, Act.brings, waiting, hbuffer]
  | fill hneeds =>
    simp [Act.item?, Act.brings, waiting, received, (needsPage_eq_true hneeds).1]
  | fail hneeds => simp [Act.item?, Act.brings, waiting, (needsPage_eq_true hneeds).1]

/-- When no page is read any more, it stays so, and nothing but the end is added. -/
theorem ended (hdone : paging.done = true) :
    turn.after.done = true ∧ turn.act.reads = false ∧
      ∃ ends, turn.act.brings = List.replicate ends none := by
  cases h with
  | give => exact ⟨hdone, rfl, 0, rfl⟩
  | stop => exact ⟨hdone, rfl, 1, rfl⟩
  | fill hneeds => simp [needsPage, hdone] at hneeds
  | fail hneeds => simp [needsPage, hdone] at hneeds

theorem done_of_last {items : List StoreItem} (hlast : turn.act.Last items) :
    turn.after.done = true ∧ turn.act.brings = items.map some := by
  cases h with
  | give => cases hlast
  | stop => cases hlast
  | fill =>
    cases hlast with
    | short hshort => exact ⟨decide_eq_true hshort, List.map_map.symm⟩
  | fail =>
    cases hlast
    exact ⟨rfl, rfl⟩

end Made

/-! ### The cursor -/

theorem Within.refl (cursor : Option String) : Within cursor cursor :=
  fun last hlast => ⟨last, hlast, List.le_refl _⟩

theorem Within.trans {cursor cursor' cursor'' : Option String} (h : Within cursor cursor')
    (h' : Within cursor' cursor'') : Within cursor cursor'' := by
  intro last hlast
  obtain ⟨last', hlast', hle⟩ := h last hlast
  obtain ⟨last'', hlast'', hle'⟩ := h' last' hlast'
  exact ⟨last'', hlast'', List.le_trans hle hle'⟩

instance : Trans Within Within Within := ⟨Within.trans⟩

theorem StandsAt.within {cursor cursor' : Option String} {names' : List String}
    (h : StandsAt cursor names) (h' : StandsAt cursor' names') (hnames : names ⊆ names') :
    Within cursor cursor' := by
  rintro last ⟨⟩
  have member : last ∈ names' := hnames h.1
  cases cursor' with
  | none =>
    rw [show names' = [] from h'] at member
    cases member
  | some last' => exact ⟨last', rfl, h'.2 last member⟩

/-- A page moves the cursor to the greatest name that was read so far. -/
theorem standsAt_received {count : Nat} (h : store.IsPage paging.cursor count page)
    (hstands : StandsAt paging.cursor names) :
    StandsAt (paging.received page).cursor (names ++ page.map (·.1)) := by
  rcases List.eq_nil_or_concat' page with rfl | ⟨front, greatest, rfl⟩
  · simpa [received] using hstands
  · have hcursor : (paging.received (front ++ [greatest])).cursor = some greatest.1 := by
      simp [received]
    have hgreatest : greatest.1 ∈ (front ++ [greatest]).map (·.1) := by simp
    rw [hcursor]
    refine ⟨List.mem_append_right _ hgreatest, fun name member => ?_⟩
    -- What was read before lies no further than the old cursor, and the page lies behind that.
    rcases List.mem_append.1 member with hread | hpage
    · cases hold : paging.cursor with
      | none =>
        rw [hold] at hstands
        rw [show names = [] from hstands] at hread
        cases hread
      | some last =>
        rw [hold] at hstands
        have hless := h.behind hgreatest last hold
        exact List.le_of_lt (List.lt_of_le_of_lt (hstands.2 name hread) hless)
    · rw [List.map_append, List.mem_append, List.map_singleton, List.mem_singleton] at hpage
      rcases hpage with hfront | rfl
      · obtain ⟨entry, hentry, rfl⟩ := List.mem_map.1 hfront
        have hbefore := (List.pairwise_append.1 h.ascending).2.2
        exact List.le_of_lt (hbefore entry hentry greatest (List.mem_singleton.2 rfl))
      · exact List.le_refl _

theorem Made.standsAt (h : Made store paging turn) (hstands : StandsAt paging.cursor names) :
    StandsAt turn.after.cursor (names ++ turn.act.names) := by
  cases h with
  | give => simpa [Act.names] using hstands
  | stop => simpa [Act.names] using hstands
  | fill _ hpage =>
    exact standsAt_received (ObjectStore.isPage_of_pageAfter (by decide) hpage) hstands
  | fail => simpa [Act.names] using hstands

/-! ### Traces -/

/-- Turns that follow one another, each with a store of its own. -/
inductive Trace : Paging → List Turn → Paging → Prop
  | nil (paging : Paging) : Trace paging [] paging
  | cons {store : ObjectStore} {paging last : Paging} {turn : Turn} {turns : List Turn} :
    Made store paging turn → Trace turn.after turns last → Trace paging (turn :: turns) last

namespace Trace

theorem append {middle : Paging} {turns' : List Turn} (h : Trace paging turns middle)
    (h' : Trace middle turns' last) : Trace paging (turns ++ turns') last := by
  induction h with
  | nil => exact h'
  | cons hturn _ ih => exact .cons hturn (ih h')

/-- A trace is taken apart at any of its turns. -/
theorem split {earlier later : List Turn} (h : Trace paging (earlier ++ turn :: later) last) :
    ∃ store middle, Trace paging earlier middle ∧ Made store middle turn ∧
      Trace turn.after later last := by
  induction earlier generalizing paging with
  | nil =>
    cases h with
    | cons hturn hlater => exact ⟨_, paging, .nil paging, hturn, hlater⟩
  | cons first earlier ih =>
    cases h with
    | cons hfirst hrest =>
      obtain ⟨store, middle, hearlier, hturn, hlater⟩ := ih hrest
      exact ⟨store, middle, .cons hfirst hearlier, hturn, hlater⟩

theorem length_le (h : Trace paging turns last) (hlength : paging.buffer.length ≤ 64) :
    last.buffer.length ≤ 64 := by
  induction h with
  | nil => exact hlength
  | cons hturn _ ih => exact ih (hturn.length_le hlength)

theorem given_eq (h : Trace paging turns last) :
    given turns ++ last.waiting = paging.waiting ++ turns.flatMap (·.act.brings) := by
  rw [given, List.filterMap_eq_flatMap_toList]
  induction h with
  | nil => simp
  | cons hturn _ ih =>
    rw [List.flatMap_cons, List.append_assoc, ih, ← List.append_assoc, hturn.given_eq,
      List.append_assoc, List.flatMap_cons]

/-- When no page is read any more, none is read later, and nothing but the end is added. -/
theorem ended (h : Trace paging turns last) (hdone : paging.done = true) :
    (∀ turn ∈ turns, turn.act.reads = false) ∧
      ∃ ends, turns.flatMap (·.act.brings) = List.replicate ends none := by
  induction h with
  | nil => exact ⟨List.forall_mem_nil _, 0, rfl⟩
  | cons hturn _ ih =>
    obtain ⟨hafter, hreads, ends, hends⟩ := hturn.ended hdone
    obtain ⟨hlater, ends', hends'⟩ := ih hafter
    refine ⟨List.forall_mem_cons.2 ⟨hreads, hlater⟩, ends + ends', ?_⟩
    rw [List.flatMap_cons, hends, hends', List.replicate_append_replicate]

theorem standsAt (h : Trace paging turns last) (hstands : StandsAt paging.cursor names) :
    StandsAt last.cursor (names ++ turns.flatMap (·.act.names)) := by
  induction h generalizing names with
  | nil => simpa using hstands
  | cons hturn _ ih =>
    rw [List.flatMap_cons, ← List.append_assoc]
    exact ih (hturn.standsAt hstands)

theorem isChain_cursors (h : Trace paging turns last) (hstands : StandsAt paging.cursor names) :
    (paging.cursor :: cursors turns).IsChain Within := by
  induction h generalizing names with
  | nil => exact .singleton _
  | cons hturn _ ih =>
    have hafter := hturn.standsAt hstands
    have hforward := hstands.within hafter (List.subset_append_left ..)
    rw [cursors, List.flatMap_cons, hturn.before_eq]
    exact .cons_cons (.refl _) (.cons_cons hforward (ih hafter))

theorem empty (h : Trace paging turns last) :
    ∀ turn ∈ turns, turn.act.reads = true → turn.before.buffer = [] := by
  intro turn member hreads
  obtain ⟨earlier, later, rfl⟩ := List.append_of_mem member
  obtain ⟨store, middle, -, hturn, -⟩ := h.split
  exact (needsPage_eq_true (hturn.needsPage_of_reads hreads)).1

theorem bounded (h : Trace paging turns last) (hlength : paging.buffer.length ≤ 64) :
    ∀ turn ∈ turns, turn.before.buffer.length ≤ 64 ∧ turn.after.buffer.length ≤ 64 := by
  intro turn member
  obtain ⟨earlier, later, rfl⟩ := List.append_of_mem member
  obtain ⟨store, middle, hearlier, hturn, -⟩ := h.split
  have hmiddle := hearlier.length_le hlength
  exact ⟨hturn.before_eq ▸ hmiddle, hturn.length_le hmiddle⟩

theorem ended_of_last {earlier later : List Turn} {items : List StoreItem}
    (h : Trace paging (earlier ++ turn :: later) last) (hlast : turn.act.Last items) :
    (∀ turn' ∈ later, turn'.act.reads = false) ∧
      ∃ ends, given (turn :: later) <+: items.map some ++ List.replicate ends none := by
  obtain ⟨store, middle, -, hturn, hlater⟩ := h.split
  obtain ⟨hdone, hbrings⟩ := hturn.done_of_last hlast
  obtain ⟨hreads, ends, hends⟩ := hlater.ended hdone
  refine ⟨hreads, ends, last.waiting, ?_⟩
  have hempty : middle.waiting = [] := by
    have hneeds := hturn.needsPage_of_reads hlast.reads
    rw [hturn.before_eq] at hneeds
    simp [waiting, (needsPage_eq_true hneeds).1]
  rw [(cons hturn hlater).given_eq, hempty, List.nil_append, List.flatMap_cons, hbrings,
    hends]

end Trace

/-! ### Polls -/

theorem loops_of_item {item : Option StoreItem} {ending : Option StoreItem × Paging}
    (hitem : (paging.turn store).act.item? = some item) :
    Loops store paging turns ending ↔
      turns = [paging.turn store] ∧ ending = (item, (paging.turn store).after) := by
  constructor
  · intro h
    cases h with
    | last hlast =>
      rw [hitem, Option.some.injEq] at hlast
      exact ⟨rfl, hlast ▸ rfl⟩
    | again hnone =>
      rw [hitem] at hnone
      cases hnone
  · rintro ⟨rfl, rfl⟩
    exact .last hitem

theorem loops_of_page {ending : Option StoreItem × Paging}
    (hitem : (paging.turn store).act.item? = none) :
    Loops store paging turns ending ↔
      ∃ later, turns = paging.turn store :: later ∧
        Loops store (paging.turn store).after later ending := by
  constructor
  · intro h
    cases h with
    | last hlast =>
      rw [hitem] at hlast
      cases hlast
    | again _ hlater => exact ⟨_, rfl, hlater⟩
  · rintro ⟨later, rfl, hlater⟩
    exact .again hitem hlater

/-- The turns are those of a poll. -/
structure IsPoll (paging : Paging) (store : ObjectStore) (turns : List Turn) : Prop where
  ends : paging.EndsAfter store turns
  trace : Trace paging turns (paging.poll store).2
  given_eq : given turns = [(paging.poll store).1]
  reads : turns.countP (·.act.reads) ≤ 1

/-- A turn that gives something out ends its poll. -/
theorem isPoll_singleton {item : Option StoreItem} (hturn : paging.turn store = turn)
    (hitem : turn.act.item? = some item) (hpoll : paging.poll store = (item, turn.after)) :
    IsPoll paging store [turn] where
  ends turns' ending := by
    subst hturn
    rw [hpoll]
    exact loops_of_item hitem
  trace := by
    rw [hpoll]
    exact .cons (hturn ▸ made_turn paging store) (.nil _)
  given_eq := by simp [given, hitem, hpoll]
  reads := List.countP_le_length

theorem isPoll_of_page {next : Turn} (hturn : paging.turn store = turn)
    (hpage : turn.act = .fill page) (hnext : IsPoll turn.after store [next])
    (hreads : next.act.reads = false) (hpoll : paging.poll store = turn.after.poll store) :
    IsPoll paging store [turn, next] where
  ends turns' ending := by
    subst hturn
    rw [loops_of_page (by rw [hpage]; rfl), hpoll]
    simp only [hnext.ends _ _]
    constructor
    · rintro ⟨later, rfl, rfl, rfl⟩
      exact ⟨rfl, rfl⟩
    · rintro ⟨rfl, rfl⟩
      exact ⟨[next], rfl, rfl, rfl⟩
  trace := by
    rw [hpoll]
    exact .cons (hturn ▸ made_turn paging store) hnext.trace
  given_eq := by
    rw [hpoll, ← hnext.given_eq]
    simp [given, hpage, Act.item?]
  reads := by
    rw [List.countP_cons, List.countP_cons_of_neg (by simp [hreads]), List.countP_nil]
    split <;> decide

theorem exists_isPoll_of_ready (h : paging.needsPage = false) (store : ObjectStore) :
    ∃ turn, IsPoll paging store [turn] ∧ turn.act.reads = false := by
  have hmade := made_turn paging store
  generalize hturn : paging.turn store = turn at hmade
  cases hmade with
  | give hbuffer =>
    exact ⟨_, isPoll_singleton hturn rfl (by simp [poll, h, takeBuffered, hbuffer]), rfl⟩
  | stop hbuffer =>
    exact ⟨_, isPoll_singleton hturn rfl (by simp [poll, h, takeBuffered, hbuffer]), rfl⟩
  | fill hneeds => simp [h] at hneeds
  | fail hneeds => simp [h] at hneeds

/-- The loop of a poll ends, and with what the poll gives. -/
theorem exists_isPoll (paging : Paging) (store : ObjectStore) :
    ∃ turns, IsPoll paging store turns := by
  cases hneeds : paging.needsPage with
  | false =>
    obtain ⟨turn, hpoll, -⟩ := exists_isPoll_of_ready hneeds store
    exact ⟨[turn], hpoll⟩
  | true =>
    have hmade := made_turn paging store
    generalize hturn : paging.turn store = turn at hmade
    cases hmade with
    | give hbuffer => simp [needsPage, hbuffer] at hneeds
    | stop _ hdone => simp [needsPage, hdone] at hneeds
    | fill _ hpage =>
      -- The page left something in the buffer or was short, so the next turn reads no other one.
      obtain ⟨next, hnext, hreads⟩ :=
        exists_isPoll_of_ready (needsPage_received paging _) store
      exact ⟨_, isPoll_of_page hturn rfl hnext hreads (poll_eq_received hneeds hpage)⟩
    | fail _ hpage => exact ⟨_, isPoll_singleton hturn rfl (by simp [poll, hneeds, hpage])⟩

/-- The loops of all polls end, and with what the polls give. -/
theorem exists_log (paging : Paging) (store : ObjectStore) (events : List Event) :
    ∃ log last, List.Forall₂ (fun polled turns => polled.paging.EndsAfter polled.store turns)
        (paging.polls store events) log ∧
      Trace paging log.flatten last ∧
      log.map given = (paging.polls store events).map (fun polled => [polled.item]) ∧
      ∀ turns ∈ log, turns.countP (·.act.reads) ≤ 1 := by
  induction events generalizing paging store with
  | nil => exact ⟨[], paging, .nil, .nil paging, rfl, List.forall_mem_nil _⟩
  | cons event rest ih =>
    cases event with
    | call call => exact ih paging (store.call call).2
    | poll =>
      obtain ⟨turns, hends, htrace, hgiven, hreads⟩ := exists_isPoll paging store
      obtain ⟨log, last, hlog, hlater, hitems, hsingle⟩ := ih (paging.poll store).2 store
      refine ⟨turns :: log, last, .cons hends hlog, htrace.append hlater, ?_,
        List.forall_mem_cons.2 ⟨hreads, hsingle⟩⟩
      rw [List.map_cons, hgiven, hitems, polls, List.map_cons]

/-! ### Walks from the beginning -/

/-- How a walk reads its pages, as the turns of its polls show. -/
structure Lazy (log : List (List Turn)) : Prop where
  /-- A poll reads at most one page. -/
  single : ∀ turns ∈ log, turns.countP (·.act.reads) ≤ 1
  /-- A page is read only when the buffer is empty. -/
  empty : ∀ turn ∈ log.flatten, turn.act.reads = true → turn.before.buffer = []
  bounded : ∀ turn ∈ log.flatten,
    turn.before.buffer.length ≤ 64 ∧ turn.after.buffer.length ≤ 64
  /-- The cursor never goes back. -/
  forward : (cursors log.flatten).Pairwise Within
  /-- The cursor stands at the greatest name that was read so far, if one was. -/
  greatest : ∀ earlier turn later, log.flatten = earlier ++ turn :: later →
    StandsAt turn.after.cursor ((earlier ++ [turn]).flatMap (·.act.names))
  /-- After a page that came back short or failed none is read. What is still given out is that page
  or its error, and then the end. -/
  ended : ∀ earlier turn later items, log.flatten = earlier ++ turn :: later →
    turn.act.Last items → (∀ turn' ∈ later, turn'.act.reads = false) ∧
      ∃ ends, given (turn :: later) <+: items.map some ++ List.replicate ends none

/-- Whatever is put and dropped between the polls of a walk, every poll ends after at most one page.
Pages are read only when nothing is left of the one before, in the order of their names, and none
after one that came back short or failed. -/
theorem walk_reads_lazily (store : ObjectStore) (events : List Event) :
    ∃ log, List.Forall₂ (fun polled turns => polled.paging.EndsAfter polled.store turns)
        (fresh.polls store events) log ∧
      log.map given = (fresh.polls store events).map (fun polled => [polled.item]) ∧ Lazy log := by
  obtain ⟨log, last, hlog, htrace, hitems, hreads⟩ := exists_log fresh store events
  have hfresh : StandsAt fresh.cursor [] := rfl
  refine ⟨log, hlog, hitems, hreads, htrace.empty, htrace.bounded (by decide), ?_, ?_, ?_⟩
  · exact (htrace.isChain_cursors hfresh).pairwise.tail
  · intro earlier turn later hsplit
    rw [hsplit] at htrace
    obtain ⟨store, middle, hearlier, hturn, -⟩ := htrace.split
    rw [List.flatMap_append, List.flatMap_singleton]
    exact hturn.standsAt (hearlier.standsAt hfresh)
  · intro earlier turn later items hsplit hlast
    exact Trace.ended_of_last (hsplit ▸ htrace) hlast

end DocumentServer.Paging
