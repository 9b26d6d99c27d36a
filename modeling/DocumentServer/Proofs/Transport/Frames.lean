import DocumentServer.Transport.Line

/-! Answers as frames, and what lines make of them. An answer is a start frame, pieces that announce
more, and one final piece. A line grows by exactly those frames whose sends report success, so what
a line carries can be read off the outcomes of the sends. -/
namespace DocumentServer

namespace Frame

/-- The data of a body frame that announces more. -/
def more? : Frame → Option Bytes
  | body data true => some data
  | _ => none

/-- The data of a final frame. -/
def last? : Frame → Option Bytes
  | body data false => some data
  | _ => none

def isStart : Frame → Bool
  | start .. => true
  | body .. => false

/-- The frames of an answer, with its final piece if it has come that far. -/
def answer (status : Nat) (headers : List (Bytes × Bytes)) (chunks : List Bytes)
    (last : Option Bytes) : List Frame :=
  start status headers :: (chunks.map (body · true) ++ last.toList.map (body · false))

/-- What an answer can begin with. -/
def Begun (frames : List Frame) : Prop :=
  ∃ status headers chunks last, frames <+: answer status headers chunks (some last)

/-- An answer from its start frame to its final one. -/
def Whole (frames : List Frame) : Prop :=
  ∃ status headers chunks last, frames = answer status headers chunks (some last)

variable (status : Nat) (headers : List (Bytes × Bytes)) (chunks : List Bytes)

theorem answer_append_more (data : Bytes) :
    answer status headers chunks none ++ [body data true] =
      answer status headers (chunks ++ [data]) none := by
  simp [answer]

theorem answer_append_last (data : Bytes) :
    answer status headers chunks none ++ [body data false] =
      answer status headers chunks (some data) := by
  simp [answer]

theorem filterMap_more?_answer (last : Option Bytes) :
    (answer status headers chunks last).filterMap more? = chunks := by
  have hmore : more? ∘ (body · true) = some := rfl
  have hlast : more? ∘ (body · false) = fun _ => none := rfl
  rw [answer, List.filterMap_cons_none rfl, List.filterMap_append, List.filterMap_map,
    List.filterMap_map, hmore, hlast, List.filterMap_some]
  simp

theorem filterMap_last?_answer (last : Option Bytes) :
    (answer status headers chunks last).filterMap last? = last.toList := by
  have hmore : last? ∘ (body · true) = fun _ => none := rfl
  have hlast : last? ∘ (body · false) = some := rfl
  rw [answer, List.filterMap_cons_none rfl, List.filterMap_append, List.filterMap_map,
    List.filterMap_map, hmore, hlast, List.filterMap_some]
  simp

theorem begun_nil : Begun [] := ⟨0, [], [], [], List.nil_prefix⟩

theorem begun_answer (last : Option Bytes) : Begun (answer status headers chunks last) := by
  cases last with
  | none =>
    refine ⟨status, headers, chunks, [], ?_⟩
    rw [← answer_append_last]
    exact List.prefix_append _ _
  | some data => exact ⟨status, headers, chunks, data, List.prefix_rfl⟩

theorem whole_answer_iff (last : Option Bytes) :
    Whole (answer status headers chunks last) ↔ last.isSome := by
  constructor
  · rintro ⟨status', headers', chunks', data, same⟩
    have h := congrArg (List.filterMap last?) same
    rw [filterMap_last?_answer, filterMap_last?_answer] at h
    cases last with
    | none => cases h
    | some _ => rfl
  · intro h
    obtain ⟨data, rfl⟩ := Option.isSome_iff_exists.1 h
    exact ⟨status, headers, chunks, data, rfl⟩

theorem not_whole_nil : ¬ Whole [] := by
  rintro ⟨_, _, _, _, h⟩
  cases h

/-- A whole answer starts once and ends once. -/
theorem Whole.counts {frames : List Frame} (h : Whole frames) :
    frames.countP isStart = 1 ∧ frames.countP isFinal = 1 := by
  obtain ⟨status, headers, chunks, data, rfl⟩ := h
  have hstart (more : Bool) : isStart ∘ (body · more) = fun _ => false := rfl
  have hmore : isFinal ∘ (body · true) = fun _ => false := rfl
  constructor
  · rw [answer, List.countP_cons, List.countP_append, List.countP_map, List.countP_map, hstart,
      hstart]
    simp [isStart]
  · rw [answer, List.countP_cons, List.countP_append, List.countP_map, hmore]
    simp [isFinal]

end Frame

namespace Line

variable (line : Line) (patience : Patience) (frame : Frame)

@[simp] theorem reception_send : (line.send patience frame).2.reception = line.reception := by
  unfold send
  dsimp only
  split
  · rfl
  · split <;> rfl

theorem offered_send : (line.send patience frame).2.offered = line.offered + 1 := by
  unfold send
  dsimp only
  split
  · rfl
  · split <;> rfl

theorem frames_send :
    (line.send patience frame).2.frames =
      line.frames ++ if (line.send patience frame).1 = .done () then [frame] else [] := by
  by_cases hwait : (line.reception line.offered).suspends ∧ patience = .onePoll
  · simp [send, hwait, frames]
  · cases hrefusal : (line.reception line.offered).refusal with
    | none => simp [send, hwait, hrefusal, frames]
    | some text => simp [send, hwait, hrefusal, frames]

/-- A line has no say in what the state of a stream allows. -/
theorem send_ne_state (fault : StateFault) :
    (line.send patience frame).1 ≠ .failed (.state fault) := by
  unfold send
  dsimp only
  split
  · nofun
  · split <;> nofun

/-- A caller that waits gets every frame through that is not refused. -/
theorem send_done (h : (line.reception line.offered).refusal = none) :
    (line.send .untilDone frame).1 = .done () := by
  simp [send, h]

theorem send_done_iff :
    (line.send .untilDone frame).1 = .done () ↔ (line.reception line.offered).refusal = none := by
  cases h : (line.reception line.offered).refusal <;> simp [send, h]

end Line

namespace Lines

variable (lines : Lines) (i : Nat) (line : Line)

@[simp] theorem set_self : lines.set i line i = line := if_pos rfl

@[simp] theorem set_eq_self : lines.set i (lines i) = lines := by
  funext j
  unfold set
  split
  next h => rw [h]
  next => rfl

theorem set_of_ne {i j : Nat} (h : j ≠ i) : lines.set i line j = lines j := if_neg h

end Lines

end DocumentServer
