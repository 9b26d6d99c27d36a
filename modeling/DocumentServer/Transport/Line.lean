import DocumentServer.Http.Frame
import DocumentServer.Response.Error

/-! The lines that frames leave on. What a line does with a frame depends only on how many were
offered to it before: it may suspend the call, and it accepts the frame or refuses it. A call that
is given up while suspended leaves nothing on the line, but it counts as offered. -/
namespace DocumentServer

/-- What a line does with an offered frame. -/
structure Reception where
  /-- Whether the call waits at first. -/
  suspends : Bool
  /-- Why the frame is refused, if it is. -/
  refusal : Option String
  deriving DecidableEq, Repr

namespace Reception

def accepted : Reception := ⟨false, none⟩

end Reception

/-- How long a caller waits for a suspended call. -/
inductive Patience where
  /-- To the end. -/
  | untilDone
  /-- Not at all: a call that is suspended is given up. -/
  | onePoll
  deriving DecidableEq, Repr

/-- How a call that may send frames ends. -/
inductive Outcome (α : Type) where
  | done (value : α)
  | failed (error : ResponseError)
  /-- The caller gave the call up while it was suspended. -/
  | cancelled
  deriving DecidableEq, Repr

namespace Outcome

/-- The same ending with another value. -/
def map {α β : Type} (f : α → β) : Outcome α → Outcome β
  | done value => done (f value)
  | failed error => failed error
  | cancelled => cancelled

end Outcome

structure Line where
  /-- What happens to the frame that is offered after `n` others. -/
  reception : Nat → Reception
  /-- How many frames were offered. -/
  offered : Nat
  /-- The accepted frames, the last one first. -/
  log : List Frame

namespace Line

def fresh (reception : Nat → Reception) : Line := ⟨reception, 0, []⟩

/-- A line that accepts every frame. -/
def recorder : Line := fresh fun _ => .accepted

/-- The accepted frames in their order. -/
def frames (line : Line) : List Frame := line.log.reverse

def send (line : Line) (patience : Patience) (frame : Frame) : Outcome Unit × Line :=
  let reception := line.reception line.offered
  let line := { line with offered := line.offered + 1 }
  if reception.suspends ∧ patience = .onePoll then (.cancelled, line)
  else
    match reception.refusal with
    | some text => (.failed (.transport text), line)
    | none => (.done (), { line with log := frame :: line.log })

end Line

/-- The lines of several requests, by number. -/
abbrev Lines := Nat → Line

namespace Lines

def set (lines : Lines) (i : Nat) (line : Line) : Lines := fun j => if j = i then line else lines j

end Lines

end DocumentServer
