import DocumentServer.Proofs.Gateway.CutListing
import DocumentServer.Proofs.Stream.Untouched

/-! Where item streams break off. There are two reasons to write nothing more: an error came in the
place of an item, or a line was refused. Each can arise at any item, and no entry is a reason,
whatever its name and its document are. So an item is offered exactly if all items before it are
entries that were accepted, and what is offered stays unless it is refused. -/
namespace DocumentServer

namespace Handlers

/-! ### Where a list of items is cut -/

/-- How far a list of items gets if `accepts` says of each place whether the line that is sent there
is accepted: so many items are attempted, and these are written. -/
structure Cutoff (items : List StoreItem) (accepts : Nat → Prop) (attempts : Nat)
    (written : List StoreItem) : Prop where
  inOrder : written <+: items
  /-- An item is attempted if those before it are entries and were accepted. -/
  attempted : ∀ k, k < attempts ↔
    k < items.length ∧ ∀ j < k, (∃ entry, items[j]? = some (.ok entry)) ∧ accepts j
  /-- What is attempted is written if it is accepted. -/
  accepted : ∀ k, k < written.length ↔ k < attempts ∧ accepts k

variable {items : List StoreItem} {accepts : Nat → Prop} {attempts : Nat}
  {written : List StoreItem}

theorem cutoff_nil (accepts : Nat → Prop) : Cutoff [] accepts 0 [] where
  inOrder := List.prefix_rfl
  attempted := by simp
  accepted := by simp

/-- A refused line is the last attempt. -/
theorem cutoff_refused (item : StoreItem) (items : List StoreItem) (h : ¬ accepts 0) :
    Cutoff (item :: items) accepts 1 [] where
  inOrder := List.nil_prefix
  attempted k := by
    constructor
    · intro hk
      obtain rfl : k = 0 := by omega
      simp
    · rintro ⟨-, hbefore⟩
      by_contra hk
      exact h (hbefore 0 (by omega)).2
  accepted k := by
    constructor
    · nofun
    · rintro ⟨hk, haccepts⟩
      obtain rfl : k = 0 := by omega
      exact absurd haccepts h

/-- An error is the last item. -/
theorem cutoff_error (error : DbError) (items : List StoreItem) (h : accepts 0) :
    Cutoff (.error error :: items) accepts 1 [.error error] where
  inOrder := (List.prefix_cons_inj _).2 List.nil_prefix
  attempted k := by
    constructor
    · intro hk
      obtain rfl : k = 0 := by omega
      simp
    · rintro ⟨-, hbefore⟩
      by_contra hk
      obtain ⟨⟨entry, hentry⟩, -⟩ := hbefore 0 (by omega)
      cases hentry
  accepted k := by
    constructor
    · intro hk
      obtain rfl : k = 0 := by simpa using hk
      exact ⟨by omega, h⟩
    · exact fun hk => hk.1

/-- Behind an entry that is accepted the others have their turn. -/
theorem Cutoff.entry (h : Cutoff items (fun k => accepts (k + 1)) attempts written)
    (entry : String × Document) (hfirst : accepts 0) :
    Cutoff (.ok entry :: items) accepts (attempts + 1) (.ok entry :: written) where
  inOrder := (List.prefix_cons_inj _).2 h.inOrder
  attempted k := by
    cases k with
    | zero => simp
    | succ k =>
      rw [Nat.add_lt_add_iff_right, h.attempted, List.length_cons, Nat.add_lt_add_iff_right]
      refine and_congr_right fun _ => ⟨fun hbefore j hj => ?_, fun hbefore j hj => ?_⟩
      · cases j with
        | zero => exact ⟨⟨entry, rfl⟩, hfirst⟩
        | succ j => exact hbefore j (by omega)
      · exact hbefore (j + 1) (by omega)
  accepted k := by
    cases k with
    | zero => simp [hfirst]
    | succ k =>
      rw [List.length_cons, Nat.add_lt_add_iff_right, Nat.add_lt_add_iff_right]
      exact h.accepted k

/-! ### What is written -/

/-- From a prepared stream with a writer, the lines of these items and nothing else went out on the
line of its request, in so many attempts. The stream can go on: its writer counts the bytes. -/
structure Wrote (stream : Stream) (request : Request) (writer : Writer) (lines : Lines)
    (attempts : Nat) (written : List StoreItem) (after : Stream × Lines) : Prop where
  frames : (after.2 request.line).frames =
    (lines request.line).frames ++ written.map fun item => .body (itemLine item) true
  offered : (after.2 request.line).offered = (lines request.line).offered + attempts
  lines : lines.SameBut request.line after.2
  stream : after.1 = stream.withWriter request (writer.credited (written.flatMap itemLine).length)

variable {stream : Stream} {request : Request} {writer : Writer} {lines : Lines}

theorem wrote_nothing (hphase : stream.phase = .prepared request writer) (lines : Lines) :
    Wrote stream request writer lines 0 [] (stream, lines) where
  frames := (List.append_nil _).symm
  offered := rfl
  lines := .refl _ _
  stream := (Stream.withWriter_eq_self hphase).symm

/-- An item is one attempt, and its line goes out if that succeeds. -/
theorem wrote_item (hphase : stream.phase = .prepared request writer) (hidle : writer.Idle)
    (hopen : writer.ended = false) (lines : Lines) (item : StoreItem) :
    let after := stream.write .untilDone (itemLine item) lines
    (after.1 = .done () ↔
      ((lines request.line).reception (lines request.line).offered).refusal = none) ∧
    Wrote stream request writer lines 1 (if after.1 = .done () then [item] else []) after.2 := by
  let frame := Frame.body (itemLine item) true
  have hframes := (lines request.line).frames_send .untilDone frame
  have hoffered := (lines request.line).offered_send .untilDone frame
  have hreception := (lines request.line).reception_send .untilDone frame
  have hdone := (lines request.line).send_done_iff frame
  simp only [Stream.write, hphase,
    hidle.write .untilDone (itemLine item) (lines request.line) hopen]
  rcases hsend : (lines request.line).send .untilDone frame with ⟨outcome, line⟩
  rw [hsend] at hframes hoffered hreception hdone
  have hself : lines.set request.line line request.line = line := Lines.set_self ..
  have hsame : lines.SameBut request.line (lines.set request.line line) :=
    Lines.sameBut_set hreception
  refine ⟨hdone, ?_, (congrArg Line.offered hself).trans hoffered, hsame, ?_⟩
  · refine (congrArg Line.frames hself).trans (hframes.trans ?_)
    by_cases hsent : outcome = .done () <;> simp [hsent, frame]
  · by_cases hsent : outcome = .done ()
    · simp [hsent]
    · simp only [hsent, ↓reduceIte]
      rfl

/-- What is written behind what was written before. -/
theorem Wrote.append {attempts attempts' : Nat} {written written' : List StoreItem}
    {between after : Stream × Lines}
    (h : Wrote stream request writer lines attempts written between)
    (h' : Wrote between.1 request (writer.credited (written.flatMap itemLine).length) between.2
      attempts' written' after) :
    Wrote stream request writer lines (attempts + attempts') (written ++ written') after where
  frames := by rw [h'.frames, h.frames, List.map_append, List.append_assoc]
  offered := by rw [h'.offered, h.offered, Nat.add_assoc]
  lines := h.lines.trans h'.lines
  stream := by
    rw [h'.stream, h.stream, List.flatMap_append, List.length_append]
    simp [Stream.withWriter, Writer.credited, Nat.add_assoc]

/-- Writing items gets as far as the line and the items let it. -/
theorem cutoff_writeItems (hphase : stream.phase = .prepared request writer)
    (hidle : writer.Idle) (hopen : writer.ended = false) (items : List StoreItem) (lines : Lines) :
    let line := lines request.line
    ∃ attempts written,
      Cutoff items (fun k => (line.reception (line.offered + k)).refusal = none) attempts written ∧
      Wrote stream request writer lines attempts written (writeItems items stream lines) := by
  induction items generalizing stream writer lines with
  | nil => exact ⟨0, [], cutoff_nil _, wrote_nothing hphase lines⟩
  | cons item items ih =>
    intro line
    obtain ⟨hdone, hwrote⟩ := wrote_item hphase hidle hopen lines item
    rw [writeItems_cons]
    by_cases haccepted : (line.reception line.offered).refusal = none
    · rw [if_pos (hdone.2 haccepted)] at hwrote
      cases item with
      | error error =>
        rw [if_neg (by simp [Except.isOk, Except.toBool])]
        exact ⟨1, _, cutoff_error error items haccepted, hwrote⟩
      | ok entry =>
        rw [if_pos ⟨hdone.2 haccepted, rfl⟩]
        let between := (stream.write .untilDone (itemLine (.ok entry)) lines).2
        have hphase' : between.1.phase = .prepared request _ := congrArg Stream.phase hwrote.stream
        obtain ⟨attempts, written, hcutoff, hrest⟩ :=
          ih hphase' (hidle.credited _) hopen between.2
        -- the places of the other items are counted from the one behind this
        have hshift : (fun k => ((between.2 request.line).reception
              ((between.2 request.line).offered + k)).refusal = none) =
            fun k => (line.reception (line.offered + (k + 1))).refusal = none := by
          funext k
          rw [hwrote.lines.reception, hwrote.offered, Nat.add_assoc, Nat.add_comm 1 k]
        rw [hshift] at hcutoff
        refine ⟨1 + attempts, _, ?_, hwrote.append hrest⟩
        rw [Nat.add_comm]
        exact hcutoff.entry entry haccepted
    · rw [if_neg fun h => haccepted (hdone.1 h.1)]
      rw [if_neg fun h => haccepted (hdone.1 h)] at hwrote
      exact ⟨1, [], cutoff_refused item items haccepted, hwrote⟩

/-- Items that are written to a prepared stream with an open writer, however it was reached, go out
one frame each and in their order. One is attempted exactly if all before it are entries that were
accepted, so an error is the last to be attempted and so is the first that is refused, and what is
attempted is written unless it is refused. Whether to go on is told from the documents that are
written: that of an entry never has a member `error`, and that of an error does. -/
theorem writeItems_cutoff (hreached : stream.Reached)
    (hphase : stream.phase = .prepared request writer) (hopen : writer.ended = false)
    (items : List StoreItem) (lines : Lines) :
    let line := lines request.line
    (∃ attempts written,
      Cutoff items (fun k => (line.reception (line.offered + k)).refusal = none) attempts written ∧
      Wrote stream request writer lines attempts written (writeItems items stream lines)) ∧
    (∀ entry, itemLine (.ok entry) = entryLine entry ∧
      ((itemDocument (.ok entry)).member? "error").isSome = false) ∧
    ∀ error, itemLine (.error error) = failureLine error ∧
      ((itemDocument (.error error)).member? "error").isSome = true :=
  ⟨cutoff_writeItems hphase (hreached.resting request writer hphase) hopen items lines,
    fun entry => ⟨itemLine_ok entry, member?_error_ok entry⟩,
    fun error => ⟨itemLine_error error, member?_error_itemDocument (.error error)⟩⟩

/-- An entry whose name is `error` and whose document has a member `error` does not end the stream;
the error behind it does. -/
theorem writeItems_cutoff_at_error :
    let request : Request := ⟨"GET", "/main/@items", none, [], 0⟩
    let fresh : Stream := ⟨0, Status.ok.statusCode, ∅, none, none, none, ∅, .notStarted⟩
    let started := fresh.call .untilDone (fun _ => .recorder) (.prepare request)
    let failure : Document := .object [("error", .null)]
    let items : List StoreItem :=
      [.ok ("error", failure), .error (.reading "disk unplugged"), .ok ("z", .null)]
    let after := writeItems items started.2.1 started.2.2
    started.2.1.Reached ∧ started.2.1.phase = .prepared request .fresh ∧
      (after.2 0).offered = 3 ∧
      (after.2 0).frames = (started.2.2 0).frames ++
        [.body (entryLine ("error", failure)) true,
          .body (failureLine (.reading "disk unplugged")) true] := by
  intro request fresh started failure items after
  have hreached : started.2.1.Reached :=
    (@Stream.Reached.fresh fresh rfl).run (fun _ => .recorder) [(.untilDone, .prepare request)]
  obtain ⟨⟨attempts, written, hcutoff, hwrote⟩, hentry, herror⟩ :=
    writeItems_cutoff hreached (show started.2.1.phase = .prepared request .fresh from rfl) rfl
      items started.2.2
  have haccepts (k : Nat) :
      ((started.2.2 0).reception ((started.2.2 0).offered + k)).refusal = none := rfl
  have hsecond : 1 < attempts := by
    refine (hcutoff.attempted 1).2 ⟨by decide, fun j hj => ?_⟩
    obtain rfl : j = 0 := by omega
    exact ⟨⟨_, rfl⟩, haccepts 0⟩
  have hthird : ¬ 2 < attempts := by
    intro h
    obtain ⟨⟨entry, hitem⟩, -⟩ := ((hcutoff.attempted 2).1 h).2 1 (by decide)
    cases hitem
  have hlength : written.length = 2 := by
    have hlast := (hcutoff.accepted 1).2 ⟨hsecond, haccepts 1⟩
    have hnone := mt (hcutoff.accepted 2).1 fun h => hthird h.1
    omega
  have hwritten : written = items.take 2 := hlength ▸ List.prefix_iff_eq_take.1 hcutoff.inOrder
  refine ⟨hreached, rfl, ?_, ?_⟩
  · rw [hwrote.offered, show attempts = 2 by omega]
    rfl
  · rw [hwrote.frames, hwritten, ← (hentry _).1, ← (herror _).1]
    rfl

end Handlers

end DocumentServer
