import DocumentServer.Gateway.Handlers
import DocumentServer.Proofs.Stream.Session

/-! Bodies with holes. A writer takes a chunk out of its queue before it knows whether the line
accepts it, and nothing marks the stream as broken afterwards, so that a later ending seals a body
that lacks the chunk. A sealed body holds the chunks whose calls succeeded and lacks all others that
entered the queue, whoever ends the stream. -/
namespace DocumentServer

namespace Frame

def data : Frame → Bytes
  | start .. => []
  | body data _ => data

theorem flatMap_data_answer (status : Nat) (headers : List (Bytes × Bytes)) (chunks : List Bytes)
    (last : Bytes) :
    (answer status headers chunks (some last)).flatMap data = chunks.flatten ++ last := by
  have hpiece (more : Bool) : (fun chunk => data (body chunk more)) = id := rfl
  rw [answer, List.flatMap_cons, List.flatMap_append, List.flatMap_map, hpiece, List.flatMap_id]
  simp [data]

end Frame

namespace Stream

/-! ### Chunks that enter the queue -/

/-- Whether a chunk that is written now enters a queue: the stream has a writer that is not ended.
-/
def takesChunks (stream : Stream) : Bool := stream.writer?.any (!·.ended)

/-- The chunks that enter the queue, in the order of the calls that write them, each with whether
its call succeeds. -/
def queued (stream : Stream) (lines : Lines) : List (Patience × Call) → List (Bytes × Bool)
  | [] => []
  | (patience, call) :: rest =>
    let (outcome, after, lines') := stream.call patience lines call
    let later := after.queued lines' rest
    match call.chunk? with
    | some chunk => if stream.takesChunks then (chunk, outcome = .done ()) :: later else later
    | none => later

/-- A call that writes a chunk succeeds only if the chunk enters the queue. -/
theorem outcome?_chunk (stream : Stream) (patience : Patience) (lines : Lines) {call : Call}
    {chunk : Bytes} (h : call.chunk? = some chunk) :
    stream.outcome? patience lines call = some (.done ()) ↔
      stream.takesChunks = true ∧ (stream.call patience lines call).1 = .done () := by
  cases call with
  | write data =>
    cases hphase : stream.phase with
    | notStarted => simp [outcomeWith?, callWith, Stream.call, write, hphase]
    | closed => simp [outcomeWith?, callWith, Stream.call, write, hphase]
    | prepared request writer =>
      cases hended : writer.ended <;>
        simp [outcomeWith?, callWith, Stream.call, write, hphase, takesChunks, writer?,
          Writer.write, hended]
  | writer call =>
    cases hphase : stream.phase with
    | notStarted => simp [outcomeWith?, callWriter, hphase, takesChunks, writer?]
    | closed => simp [outcomeWith?, callWriter, hphase, takesChunks, writer?]
    | prepared request writer =>
      cases call with
      | write data =>
        cases hended : writer.ended <;>
          simp [outcomeWith?, Stream.call, callWriter, hphase, takesChunks, writer?, Writer.call,
            Writer.write, hended]
      | _ => cases h
  | _ => cases h

/-- The chunks of the calls that succeed are those of the queue whose calls succeed. -/
theorem chunks_succeeded (stream : Stream) (lines : Lines) (calls : List (Patience × Call)) :
    (stream.succeeded lines calls).filterMap Call.chunk? =
      ((stream.queued lines calls).filter (·.2)).map (·.1) := by
  induction calls generalizing stream lines with
  | nil => rfl
  | cons entry rest ih =>
    obtain ⟨patience, call⟩ := entry
    simp only [succeededWith, callWith_own, queued, filterMap_succeeded, ih]
    cases hchunk : call.chunk? with
    | none => simp
    | some chunk =>
      have hdone := stream.outcome?_chunk patience lines hchunk
      cases htakes : stream.takesChunks with
      | false => simp [hdone, htakes]
      | true =>
        by_cases houtcome : (stream.call patience lines call).1 = .done ()
        · simp [hdone, htakes, houtcome]
        · simp [hdone, htakes, houtcome]

theorem length_kept_le (chunks : List (Bytes × Bool)) :
    ((chunks.filter (·.2)).map (·.1)).flatten.length ≤ (chunks.map (·.1)).flatten.length := by
  induction chunks with
  | nil => exact Nat.le_refl _
  | cons chunk rest ih =>
    obtain ⟨data, kept⟩ := chunk
    rw [List.map_cons, List.flatten_cons, List.length_append]
    cases kept with
    | true =>
      rw [List.filter_cons_of_pos rfl, List.map_cons, List.flatten_cons, List.length_append]
      omega
    | false =>
      rw [List.filter_cons_of_neg (by simp)]
      omega

/-- Chunks that are left out do not show exactly when they are empty. -/
theorem flatten_kept_iff (chunks : List (Bytes × Bool)) :
    ((chunks.filter (·.2)).map (·.1)).flatten = (chunks.map (·.1)).flatten ↔
      ∀ chunk ∈ chunks, chunk.2 = false → chunk.1 = [] := by
  induction chunks with
  | nil => simp
  | cons chunk rest ih =>
    obtain ⟨data, kept⟩ := chunk
    rw [List.forall_mem_cons, ← ih]
    cases kept with
    | true => simp
    | false =>
      rw [List.filter_cons_of_neg (by simp), List.map_cons, List.flatten_cons]
      dsimp only
      constructor
      · intro h
        have hlength := congrArg List.length h
        have hle := length_kept_le rest
        rw [List.length_append] at hlength
        have hempty : data = [] := List.eq_nil_of_length_eq_zero (by omega)
        rw [hempty, List.nil_append] at h
        exact ⟨fun _ => hempty, h⟩
      · rintro ⟨hempty, h⟩
        rw [h, hempty rfl, List.nil_append]

theorem run_append (stream : Stream) (lines : Lines) (calls calls' : List (Patience × Call)) :
    stream.run lines (calls ++ calls') =
      (stream.run lines calls).1.run (stream.run lines calls).2 calls' := by
  induction calls generalizing stream lines with
  | nil => rfl
  | cons entry rest ih => exact ih _ _

end Stream

/-! ### Streams of items -/

namespace Handlers

def itemCalls (items : List StoreItem) : List (Patience × Stream.Call) :=
  items.map fun item => (.untilDone, .write (itemLine item))

theorem writeItems_run (items : List StoreItem) (stream : Stream) (lines : Lines) :
    ∃ listed, listed <+: items ∧
      writeItems items stream lines = stream.run lines (itemCalls listed) := by
  induction items generalizing stream lines with
  | nil => exact ⟨[], List.prefix_rfl, rfl⟩
  | cons item items ih =>
    have hlast : ∃ listed, listed <+: item :: items ∧
        (stream.write .untilDone (itemLine item) lines).2 = stream.run lines (itemCalls listed) :=
      ⟨[item], (List.prefix_cons_inj item).2 List.nil_prefix, rfl⟩
    unfold writeItems
    rcases hwrite : stream.write .untilDone (itemLine item) lines with ⟨outcome, after, lines'⟩
    rw [hwrite] at hlast
    -- What follows an item that fails or can not be written is not looked at.
    cases outcome with
    | failed => exact hlast
    | cancelled => exact hlast
    | done =>
      dsimp only
      split
      · exact hlast
      · obtain ⟨listed, hprefix, hlisted⟩ := ih after lines'
        refine ⟨item :: listed, (List.prefix_cons_inj item).2 hprefix, ?_⟩
        rw [itemCalls, List.map_cons, Stream.run, Stream.call, hwrite]
        exact hlisted

/-- The calls of a handler that sends items: it writes some of them and ends the stream, if it can
be started. -/
inductive ItemCalls (request : Request) (items : List StoreItem) :
    List (Patience × Stream.Call) → Prop
  | unstarted : ItemCalls request items [(.untilDone, .prepare request)]
  | started {listed : List StoreItem} : listed <+: items → ItemCalls request items
      ((.untilDone, .prepare request) :: (itemCalls listed ++ [(.untilDone, .writeEnd [])]))

theorem sendItems_run (id : Nat) (request : Request) (items : List StoreItem) (lines : Lines) :
    ∃ (stream : Stream) (calls : List (Patience × Stream.Call)), stream.phase = .notStarted ∧
      ItemCalls request items calls ∧
      (sendItems id request items lines).2 = (stream.run lines calls).2 := by
  let fresh : Stream :=
    ⟨id, Status.ok.statusCode, ∅, some linesContentType, none, none, ∅, .notStarted⟩
  have hbuild : Stream.build id Status.ok.code ∅ =
      .ok { fresh with contentType := none } := rfl
  simp only [sendItems, hbuild]
  rcases hprepare : fresh.prepare .untilDone request lines with ⟨outcome, started, lines'⟩
  cases outcome with
  | failed => exact ⟨fresh, _, rfl, .unstarted, by rw [Stream.run, Stream.call, hprepare]; rfl⟩
  | cancelled => exact ⟨fresh, _, rfl, .unstarted, by rw [Stream.run, Stream.call, hprepare]; rfl⟩
  | done =>
    obtain ⟨listed, hprefix, hlisted⟩ := writeItems_run items started lines'
    refine ⟨fresh, _, rfl, .started hprefix, ?_⟩
    rw [Stream.run, Stream.call, hprepare]
    dsimp only
    rw [Stream.run_append, ← hlisted]
    rfl

end Handlers

/-! ### Sealed bodies -/

namespace Session

/-- If the frames end a body, it is made of the chunks in the queue whose calls succeeded and of the
final piece, so it is whole exactly if the others have no bytes. -/
def Seals (sent : List Frame) (queued : List (Bytes × Bool)) : Prop :=
  ∀ last ∈ sent.filterMap Frame.last?,
    sent.flatMap Frame.data = ((queued.filter (·.2)).map (·.1)).flatten ++ last ∧
      (sent.flatMap Frame.data = (queued.map (·.1)).flatten ++ last ↔
        ∀ chunk ∈ queued, chunk.2 = false → chunk.1 = [])

/-- What was sent went to one line, and a body that it ends has the chunks that were kept. -/
def SealedBy (before after : Lines) (queued : List (Bytes × Bool)) : Prop :=
  ∃ i sent, (∀ j, (after j).frames = (before j).frames ++ if j = i then sent else []) ∧
    Seals sent queued

theorem seals_answer (status : Nat) (headers : List (Bytes × Bytes))
    (queued : List (Bytes × Bool)) (last : Option Bytes) :
    Seals (Frame.answer status headers ((queued.filter (·.2)).map (·.1)) last) queued := by
  intro final hfinal
  rw [Frame.filterMap_last?_answer, Option.mem_toList] at hfinal
  rw [hfinal, Frame.flatMap_data_answer]
  refine ⟨rfl, ?_⟩
  rw [List.append_left_inj]
  exact Stream.flatten_kept_iff queued

theorem sealedBy_after (session : Session) {stream : Stream} (hfresh : stream.phase = .notStarted)
    (lines : Lines) :
    SealedBy lines (session.after stream lines) (stream.queued lines session.calls) := by
  have hwritten : session.writtenWith .own stream lines = _ :=
    stream.chunks_succeeded lines session.calls
  obtain ⟨phase, h⟩ :=
    session.recorded (fun request _ => Stream.Hook.quiet_own request) hfresh lines
  rw [hwritten] at h
  cases h with
  | notStarted hcarried => exact ⟨0, [], hcarried 0, nofun⟩
  | prepared _ _ _ hcarried => exact ⟨_, _, hcarried, seals_answer _ _ _ _⟩
  | closed _ _ hcarried => exact ⟨_, _, hcarried, seals_answer _ _ _ _⟩

/-- Whatever the lines accept and whichever calls are given up, a sealed body lacks the chunks whose
calls failed and nothing else. This is so for a stream that is ended by calls or as a reply, and for
one that lists items. -/
theorem sealed_body (lines : Lines) :
    (∀ (session : Session) (stream : Stream), stream.phase = .notStarted →
      SealedBy lines (session.after stream lines) (stream.queued lines session.calls)) ∧
    ∀ (id : Nat) (request : Request) (items : List StoreItem),
      let after := (Handlers.sendItems id request items lines).2
      ∃ (stream : Stream) (calls : List (Patience × Stream.Call)), stream.phase = .notStarted ∧
        Handlers.ItemCalls request items calls ∧ after = (stream.run lines calls).2 ∧
        SealedBy lines after (stream.queued lines calls) := by
  refine ⟨fun session stream hfresh => session.sealedBy_after hfresh lines, ?_⟩
  intro id request items
  obtain ⟨stream, calls, hfresh, hcalls, hlines⟩ := Handlers.sendItems_run id request items lines
  refine ⟨stream, calls, hfresh, hcalls, hlines, ?_⟩
  have hsealed := sealedBy_after ⟨calls, none⟩ hfresh lines
  rw [after_eq, closed_eq] at hsealed
  rwa [hlines]

/-- A chunk is refused, and the reply seals the body without it. -/
theorem sealed_body_past_refusal :
    let request : Request := ⟨"GET", "/", none, [], 0⟩
    let stream : Stream := ⟨0, Status.ok.statusCode, ∅, none, none, none, ∅, .notStarted⟩
    let lines : Lines := fun _ => .fresh fun n => ⟨false, if n = 1 then some "gone" else none⟩
    let session : Session :=
      ⟨[(.untilDone, .prepare request), (.untilDone, .write [97])], some (.untilDone, request)⟩
    stream.phase = .notStarted ∧ SealedBy lines (session.after stream lines) [([97], false)] := by
  intro request stream lines session
  exact ⟨rfl, (sealed_body lines).1 session stream rfl⟩

/-- Not every sealed body is made of the chunks that entered the queue. -/
theorem not_whole_when_sealed :
    ¬ ∀ (session : Session) (stream : Stream) (lines : Lines), stream.phase = .notStarted →
      ∀ last ∈ (session.after stream lines 0).frames.filterMap Frame.last?,
        (session.after stream lines 0).frames.flatMap Frame.data =
          ((stream.queued lines session.calls).map (·.1)).flatten ++ last := by
  intro h
  let request : Request := ⟨"GET", "/", none, [], 0⟩
  let stream : Stream := ⟨0, Status.ok.statusCode, ∅, none, none, none, ∅, .notStarted⟩
  let lines : Lines := fun _ => .fresh fun n => ⟨false, if n = 1 then some "gone" else none⟩
  let session : Session :=
    ⟨[(.untilDone, .prepare request), (.untilDone, .write [97])], some (.untilDone, request)⟩
  have hsealed : [] ∈ (session.after stream lines 0).frames.filterMap Frame.last? := by decide
  exact absurd (h session stream lines rfl [] hsealed) (by decide)

end Session

end DocumentServer
