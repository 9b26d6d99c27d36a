import DocumentServer.Http.Frame
import DocumentServer.Response.Error

/-! The channel between a handler and its client: a queue of frames that holds only so many. A full
channel makes the handler wait; a client that left makes it fail. -/
namespace DocumentServer

structure Channel where
  /-- How many frames may wait. -/
  capacity : Nat
  /-- The waiting frames, the next one first. -/
  queue : List Frame
  /-- Whether the client still listens. -/
  isOpen : Bool
  deriving DecidableEq, Repr

/-- What becomes of a frame that is offered to a channel. -/
inductive Offer where
  | taken (channel : Channel)
  /-- The handler has to wait. -/
  | full
  | refused (error : ResponseError)
  deriving DecidableEq, Repr

namespace Channel

/-- How many frames a channel can be made for at most: all that a word of 64 bits can count without
its last three bits. -/
def largest : Nat := Nat.pow 2 61 - 1

/-- A channel can be made for so many frames. -/
abbrev Fits (buffer : Nat) : Prop := buffer ≤ largest

/-- A channel without frames, unless it would be too large. It holds at least one frame, whatever is
asked for. -/
def ofBuffer? (buffer : Nat) : Option Channel :=
  if Fits (max buffer 1) then some ⟨max buffer 1, [], true⟩ else none

def clientLeft : ResponseError := .transport "client went away"

def send (channel : Channel) (frame : Frame) : Offer :=
  if !channel.isOpen then .refused clientLeft
  else if channel.capacity ≤ channel.queue.length then .full
  else .taken { channel with queue := channel.queue ++ [frame] }

def receive (channel : Channel) : Option Frame × Channel :=
  match channel.queue with
  | [] => (none, channel)
  | frame :: rest => (some frame, { channel with queue := rest })

def close (channel : Channel) : Channel := { channel with queue := [], isOpen := false }

end Channel

end DocumentServer
