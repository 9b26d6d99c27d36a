import DocumentServer.Proofs.Stream.Hooks
import DocumentServer.Proofs.Stream.Writing
import Mathlib.Tactic.SplitIfs

/-! What a stream has sent, as far as its phase and its successful calls tell. A stream that has not
started has sent nothing; from then on one line carries its answer, with the chunks of the
successful writes and the final piece of the first successful ending. With quiet hooks every call
keeps this record, and so does every run and the sending of the stream as a reply. -/
namespace DocumentServer

open DocumentServer.Frame (answer)

namespace Stream

namespace Call

/-- The chunk that a call writes, on the stream or on its writer. -/
def chunk? : Call → Option Bytes
  | write data => some data
  | writer call => call.chunk?
  | _ => none

/-- The final piece that a call writes, on the stream or on its writer. -/
def last? : Call → Option Bytes
  | writeEnd data => some data
  | writer call => call.last?
  | _ => none

end Call

/-- How a call ends. A call on the writer of a stream that has none does not take place. -/
def outcomeWith? (hooks : Request → Hook) (stream : Stream) (patience : Patience) (lines : Lines) :
    Call → Option (Outcome Unit)
  | .writer call => (stream.callWriter patience call lines).1
  | call => some (stream.callWith hooks patience lines call).1

/-- The calls of a run that succeed, in their order. -/
def succeededWith (hooks : Request → Hook) (stream : Stream) (lines : Lines) :
    List (Patience × Call) → List Call
  | [] => []
  | (patience, call) :: rest =>
    let (_, after, lines') := stream.callWith hooks patience lines call
    if stream.outcomeWith? hooks patience lines call = some (.done ()) then
      call :: after.succeededWith hooks lines' rest
    else after.succeededWith hooks lines' rest

/-- How a call ends with the hooks that requests ask for. -/
abbrev outcome? := outcomeWith? Hook.own

/-- The calls of a run that succeed with the hooks that requests ask for. -/
abbrev succeeded := succeededWith Hook.own

/-! ### What was sent -/

/-- Line `i` carries `sent` behind what it carried before, and no other line carries more. -/
def Carried (before : Nat → List Frame) (lines : Lines) (i : Nat) (sent : List Frame) : Prop :=
  ∀ j, (lines j).frames = before j ++ if j = i then sent else []

/-- What a stream has sent when its successful calls wrote `chunks` and `last`. Only requests that
were asked for get anything. -/
inductive Recorded (asked : Request → Prop) (before : Nat → List Frame) (lines : Lines)
    (chunks : List Bytes) (last : Option Bytes) : Phase → Prop
  | notStarted : (∀ i, Carried before lines i []) → chunks = [] → last = none →
      Recorded asked before lines chunks last .notStarted
  | prepared {request : Request} {writer : Writer} {status : Nat} {headers : List (Bytes × Bytes)} :
      asked request → writer.Idle → writer.ended = last.isSome →
      Carried before lines request.line (answer status headers chunks last) →
      Recorded asked before lines chunks last (.prepared request writer)
  | closed {request : Request} {length status : Nat} {headers : List (Bytes × Bytes)} :
      asked request → last.isSome →
      Carried before lines request.line (answer status headers chunks last) →
      Recorded asked before lines chunks last (.closed length)

variable {asked : Request → Prop} {before : Nat → List Frame} {stream : Stream} {lines : Lines}
  {chunks : List Bytes} {last : Option Bytes} {i : Nat} {sent : List Frame}

theorem Carried.frames (h : Carried before lines i sent) :
    (lines i).frames = before i ++ sent := by
  simpa using h i

theorem Carried.set (h : Carried before lines i sent) {line : Line} {sent' : List Frame}
    (hline : line.frames = before i ++ sent') : Carried before (lines.set i line) i sent' := by
  intro j
  by_cases hj : j = i
  · subst hj
    simp [hline]
  · rw [Lines.set_of_ne _ _ hj, h j, if_neg hj, if_neg hj]

theorem recorded_fresh (asked : Request → Prop) (hfresh : stream.phase = .notStarted)
    (lines : Lines) :
    Recorded asked (fun i => (lines i).frames) lines [] none stream.phase := by
  rw [hfresh]
  exact .notStarted (by intro i j; simp) rfl rfl

/-! ### One call -/

section Call

variable {hooks : Request → Hook} (patience : Patience)

theorem start_eq (stream : Stream) (request : Request) (lines : Lines) :
    let ready := stream.readied request
    let sending := (lines request.line).send patience (.start ready.status.val ready.headers.wire)
    stream.start patience request lines =
      (sending.1, if sending.1 = .done () then ready.withWriter request .fresh else ready,
        lines.set request.line sending.2) := by
  simp only [start]
  rcases (lines request.line).send patience _ with ⟨outcome, line⟩
  cases outcome <;> rfl

theorem recorded_start (hcarried : ∀ i, Carried before lines i []) {request : Request}
    (hasked : asked request) (hphase : stream.phase = .notStarted) :
    let after := stream.start patience request lines
    Recorded asked before after.2.2 [] none after.2.1.phase := by
  let ready := stream.readied request
  let frame := Frame.start ready.status.val ready.headers.wire
  have hsend := (lines request.line).frames_send patience frame
  rw [start_eq]
  by_cases hdone : ((lines request.line).send patience frame).1 = .done ()
  · rw [if_pos hdone, (hcarried request.line).frames, List.append_nil] at hsend
    simp only [ready, frame] at hdone hsend
    simp only [hdone, ↓reduceIte]
    exact .prepared hasked Writer.idle_fresh rfl ((hcarried request.line).set hsend)
  · rw [if_neg hdone, (hcarried request.line).frames, List.append_nil] at hsend
    have hkept (i : Nat) : Carried before
        (lines.set request.line ((lines request.line).send patience frame).2) i [] := by
      intro j
      by_cases hj : j = request.line
      · subst hj
        simp [hsend]
      · rw [Lines.set_of_ne _ _ hj, hcarried i j]
    simp only [ready, frame] at hdone hkept
    simp only [hdone, ↓reduceIte, show (stream.readied request).phase = .notStarted from hphase]
    exact .notStarted hkept rfl rfl

theorem Recorded.prepareWith (h : Recorded asked before lines chunks last stream.phase)
    {request : Request} (hasked : asked request) {hook : Hook} (hquiet : hook.Quiet) :
    let after := stream.prepareWith hook patience request lines
    Recorded asked before after.2.2 chunks last after.2.1.phase := by
  unfold Stream.prepareWith
  split
  next => exact h
  next => exact h
  next hphase =>
    rw [hphase] at h
    obtain ⟨hcarried, rfl, rfl⟩ := h
    have hkept := hquiet.phase stream lines hphase
    have hlines := hquiet.lines stream lines
    rcases hhook : hook stream lines with ⟨outcome, ready, lines'⟩
    rw [hhook] at hkept hlines
    obtain rfl : lines' = lines := hlines
    replace hkept : ready.phase = .notStarted := hkept
    have hunstarted : Recorded asked before lines' [] none ready.phase := by
      rw [hkept]
      exact .notStarted hcarried rfl rfl
    cases outcome with
    | done => exact recorded_start patience hcarried hasked hkept
    | failed => exact hunstarted
    | cancelled => exact hunstarted

/-- A call that reaches the writer of a prepared stream. -/
theorem Recorded.callWriter {request : Request} {writer : Writer}
    (h : Recorded asked before lines chunks last (.prepared request writer)) (call : Writer.Call) :
    let after := writer.call patience (lines request.line) call
    Recorded asked before (lines.set request.line after.2.2)
      (chunks ++ if after.1 = .done () then call.chunk?.toList else [])
      (last.or (if after.1 = .done () then call.last? else none))
      (.prepared request after.2.1) := by
  cases h with
  | prepared hasked hidle hended hcarried =>
    obtain ⟨hidle, hended, hframes⟩ := hidle.noted_call patience call hcarried.frames hended
    exact .prepared hasked hidle hended (hcarried.set hframes)

/-- A stream closes once its answer is whole. -/
theorem Recorded.close {request : Request} {writer : Writer}
    (h : Recorded asked before lines chunks last (.prepared request writer)) (hlast : last.isSome)
    (length : Nat) : Recorded asked before lines chunks last (.closed length) := by
  cases h with
  | prepared hasked _ _ hcarried => exact .closed hasked hlast hcarried

theorem Recorded.writeEnd (h : Recorded asked before lines chunks last stream.phase)
    (data : Bytes) :
    let after := stream.writeEnd patience data lines
    Recorded asked before after.2.2 chunks
      (last.or (if after.1 = .done () then some data else none)) after.2.1.phase := by
  unfold Stream.writeEnd
  split
  next => simpa using h
  next hphase =>
    rw [hphase] at h
    cases h with
    | closed hasked hlast hcarried =>
      obtain ⟨final, rfl⟩ := Option.isSome_iff_exists.1 hlast
      simpa [hphase] using Recorded.closed hasked hlast hcarried
  next request writer hphase =>
    rw [hphase] at h
    have hcall := h.callWriter patience (.writeEnd data)
    rw [Writer.call] at hcall
    rcases hend : writer.writeEnd patience data (lines request.line) with ⟨outcome, after, line⟩
    rw [hend] at hcall
    cases outcome with
    | done =>
      simpa [Writer.Call.chunk?, Writer.Call.last?] using
        hcall.close (by simp [Writer.Call.last?]) after.sent
    | failed => simpa [withWriter] using hcall
    | cancelled => simpa [withWriter] using hcall

theorem Recorded.write (h : Recorded asked before lines chunks last stream.phase) (data : Bytes) :
    let after := stream.write patience data lines
    Recorded asked before after.2.2 (chunks ++ if after.1 = .done () then [data] else []) last
      after.2.1.phase := by
  unfold Stream.write
  split
  next hphase => simpa [hphase] using hphase ▸ h
  next hphase => simpa [hphase] using hphase ▸ h
  next request writer hphase =>
    rw [hphase] at h
    have hcall := h.callWriter patience (.write data)
    rw [Writer.call] at hcall
    simpa [withWriter, Writer.Call.chunk?, Writer.Call.last?] using hcall

theorem Recorded.drain (h : Recorded asked before lines chunks last stream.phase) :
    let after := stream.drain patience lines
    Recorded asked before after.2.2 chunks last after.2.1.phase := by
  unfold Stream.drain
  split
  next hphase => simpa [hphase] using hphase ▸ h
  next hphase => simpa [hphase] using hphase ▸ h
  next request writer hphase =>
    rw [hphase] at h
    have hcall := h.callWriter patience .drain
    rw [Writer.call] at hcall
    simpa [withWriter, Writer.Call.chunk?, Writer.Call.last?] using hcall

/-- Every call keeps the record, and adds its data to it if it succeeds. -/
theorem Recorded.callWith (h : Recorded asked before lines chunks last stream.phase) (call : Call)
    (hasked : ∀ request, call.request? = some request → asked request ∧ (hooks request).Quiet) :
    let after := stream.callWith hooks patience lines call
    let done := stream.outcomeWith? hooks patience lines call = some (.done ())
    Recorded asked before after.2.2 (chunks ++ if done then call.chunk?.toList else [])
      (last.or (if done then call.last? else none)) after.2.1.phase := by
  cases call with
  | prepare request =>
    obtain ⟨hrequest, hquiet⟩ := hasked request rfl
    simpa [Stream.callWith, Call.chunk?, Call.last?] using
      h.prepareWith patience hrequest hquiet
  | write data =>
    simpa [Stream.callWith, Stream.call, outcomeWith?, Call.chunk?, Call.last?] using
      h.write patience data
  | drain => simpa [Stream.callWith, Stream.call, Call.chunk?, Call.last?] using h.drain patience
  | writeEnd data =>
    simpa [Stream.callWith, Stream.call, outcomeWith?, Call.chunk?, Call.last?] using
      h.writeEnd patience data
  | writer call =>
    cases hphase : stream.phase with
    | prepared request writer =>
      rw [hphase] at h
      simpa [Stream.callWith, Stream.call, outcomeWith?, Stream.callWriter, hphase, withWriter,
        Call.chunk?, Call.last?] using h.callWriter patience call
    | notStarted =>
      simpa [Stream.callWith, Stream.call, outcomeWith?, Stream.callWriter, hphase] using hphase ▸ h
    | closed =>
      simpa [Stream.callWith, Stream.call, outcomeWith?, Stream.callWriter, hphase] using hphase ▸ h
  | edit edit =>
    simp only [Stream.callWith, Stream.call]
    split
    next after hedit =>
      rw [← phase_edit hedit] at h
      simpa [Call.chunk?, Call.last?] using h
    next => simpa [Call.chunk?, Call.last?] using h

end Call

/-! ### Whole runs -/

theorem filterMap_succeeded {α : Type} (f : Call → Option α) (done : Prop) [Decidable done]
    (call : Call) (rest : List Call) :
    (if done then call :: rest else rest).filterMap f =
      (if done then (f call).toList else []) ++ rest.filterMap f := by
  split_ifs
  · cases h : f call <;> simp [h]
  · rfl

section Hooks

theorem Recorded.runWith (hooks : Request → Hook)
    (h : Recorded asked before lines chunks last stream.phase)
    (calls : List (Patience × Call))
    (hasked : ∀ entry ∈ calls, ∀ request, entry.2.request? = some request →
      asked request ∧ (hooks request).Quiet) :
    let after := stream.runWith hooks lines calls
    let past := stream.succeededWith hooks lines calls
    Recorded asked before after.2 (chunks ++ past.filterMap Call.chunk?)
      (last.or (past.filterMap Call.last?).head?) after.1.phase := by
  induction calls generalizing stream lines chunks last with
  | nil => simpa [Stream.runWith, succeededWith] using h
  | cons entry rest ih =>
    obtain ⟨patience, call⟩ := entry
    have hcall := h.callWith patience call (hasked (patience, call) List.mem_cons_self)
    have hrest := ih hcall fun entry hentry => hasked entry (List.mem_cons_of_mem _ hentry)
    simp only [Stream.runWith, succeededWith, filterMap_succeeded, List.head?_append,
      ← List.append_assoc, ← Option.or_assoc]
    have hhead (done : Prop) [Decidable done] : (if done then call.last?.toList else []).head? =
        if done then call.last? else none := by
      split_ifs
      · exact Option.head?_toList
      · rfl
    rw [hhead]
    exact hrest

/-- A run with the hooks that requests ask for, which are quiet. -/
theorem Recorded.run (h : Recorded asked before lines chunks last stream.phase)
    (calls : List (Patience × Call))
    (hasked : ∀ entry ∈ calls, ∀ request, entry.2.request? = some request → asked request) :
    let after := stream.run lines calls
    let past := stream.succeeded lines calls
    Recorded asked before after.2 (chunks ++ past.filterMap Call.chunk?)
      (last.or (past.filterMap Call.last?).head?) after.1.phase := by
  have hrun := h.runWith .own calls fun entry hentry request hrequest =>
    ⟨hasked entry hentry request hrequest, Hook.quiet_own request⟩
  rwa [runWith_own] at hrun

theorem Recorded.finishWith (h : Recorded asked before lines chunks last stream.phase)
    (patience : Patience) {request : Request} (hasked : asked request) {hook : Hook}
    (hquiet : hook.Quiet) :
    let after := HandlerResult.finishWith hook stream patience request lines
    Recorded asked before after.2.2 chunks
      (last.or (if after.1 = .done () then some [] else none)) after.2.1.phase := by
  unfold HandlerResult.finishWith
  split
  next =>
    have hprepare := h.prepareWith patience hasked hquiet
    rcases hprep : stream.prepareWith hook patience request lines with ⟨outcome, after, lines'⟩
    rw [hprep] at hprepare
    cases outcome with
    | done => exact Recorded.writeEnd patience hprepare []
    | failed => simpa using hprepare
    | cancelled => simpa using hprepare
  next hstarted =>
    unfold HandlerResult.finish
    split
    next hphase =>
      rw [hphase] at h
      cases h with
      | closed hasked hlast hcarried =>
        obtain ⟨final, rfl⟩ := Option.isSome_iff_exists.1 hlast
        simpa [hphase] using Recorded.closed hasked hlast hcarried
    next => exact h.writeEnd patience []
    next hphase => exact absurd hphase hstarted

theorem Recorded.finish (h : Recorded asked before lines chunks last stream.phase)
    (patience : Patience) {request : Request} (hasked : asked request) :
    let after := HandlerResult.finish stream patience request lines
    Recorded asked before after.2.2 chunks
      (last.or (if after.1 = .done () then some [] else none)) after.2.1.phase := by
  have hfinish := h.finishWith patience hasked (Hook.quiet_own request)
  rwa [HandlerResult.finishWith_own] at hfinish

end Hooks

/-- Lines of requests that were not asked for carry nothing more. -/
theorem Recorded.unchanged {phase : Phase} (h : Recorded asked before lines chunks last phase)
    (hi : ∀ request, asked request → request.line ≠ i) : (lines i).frames = before i := by
  have hother {request : Request} {sent : List Frame} (hasked : asked request)
      (hcarried : Carried before lines request.line sent) : (lines i).frames = before i := by
    rw [hcarried i, if_neg (hi request hasked).symm, List.append_nil]
  cases h with
  | notStarted hcarried _ _ => simpa using (hcarried i).frames
  | prepared hasked _ _ hcarried => exact hother hasked hcarried
  | closed hasked _ hcarried => exact hother hasked hcarried

end Stream

end DocumentServer
