import DocumentServer.Gateway.Answer
import DocumentServer.Gateway.Channel

/-! A handler and its client, taking turns in any order. In its turn the handler offers its next
frame, or waits while the channel is full; the client takes the next frame, or waits while there is
none. The client leaves when it has its whole answer. -/
namespace DocumentServer

/-- How far a client has come. -/
inductive Client where
  | waiting
  /-- The status and the headers, and the pieces that came so far. -/
  | reading (status : Nat) (headers : List (Bytes × Bytes)) (chunks : List Bytes)
  | finished (answer : Answer)
  deriving DecidableEq, Repr

namespace Client

def take : Client → Frame → Client
  | waiting, .start status headers =>
    reading (Answer.statusFor status) (headers.filterMap Answer.header?) []
  | waiting, .body .. => finished .broken
  | reading status headers chunks, .start .. =>
    finished ⟨status, headers, chunks, some .startedTwice⟩
  | reading status headers chunks, .body data more =>
    let chunks := if data.isEmpty then chunks else chunks ++ [data]
    if more then reading status headers chunks else finished ⟨status, headers, chunks, none⟩
  | finished answer, _ => finished answer

def conclude : Client → Client
  | waiting => finished .broken
  | reading status headers chunks => finished ⟨status, headers, chunks, some .truncated⟩
  | finished answer => finished answer

def isFinished : Client → Bool
  | finished _ => true
  | _ => false

end Client

structure Relay where
  /-- The frames that the handler has yet to send. -/
  pending : List Frame
  channel : Channel
  client : Client

inductive Turn where
  | handler
  | client
  deriving DecidableEq, Repr

namespace Relay

/-- A handler that is about to send frames, if there can be a channel for it. -/
def start? (buffer : Nat) (frames : List Frame) : Option Relay :=
  (Channel.ofBuffer? buffer).map fun channel => ⟨frames, channel, .waiting⟩

/-- The handler's turn. A frame that is refused is lost, and the handler goes on. -/
def handlerTurn (relay : Relay) : Relay :=
  match relay.pending with
  | [] => relay
  | frame :: rest =>
    match relay.channel.send frame with
    | .taken channel => { relay with pending := rest, channel }
    | .full => relay
    | .refused _ => { relay with pending := rest }

/-- What the client has become, which leaves when it is finished. -/
def withClient (relay : Relay) (client : Client) : Relay :=
  { relay with client, channel := if client.isFinished then relay.channel.close else relay.channel }

def clientTurn (relay : Relay) : Relay :=
  if relay.client.isFinished then relay
  else
    match relay.channel.receive with
    | (some frame, channel) => { relay with channel }.withClient (relay.client.take frame)
    | (none, _) => if relay.pending.isEmpty then relay.withClient relay.client.conclude else relay

def turn (relay : Relay) : Turn → Relay
  | .handler => relay.handlerTurn
  | .client => relay.clientTurn

def run (relay : Relay) (turns : List Turn) : Relay := turns.foldl turn relay

end Relay

end DocumentServer
