import DocumentServer.Config.Shape
import DocumentServer.Store.Error
import DocumentServer.Utility.Task

/-! A utility that beats at a fixed interval until it is told to stop. -/
namespace DocumentServer

structure Heartbeat where
  /-- The seconds between two beats. -/
  interval : Nat
  /-- When the next beat is due, once there was a turn. -/
  due : Option Nat
  beats : Nat
  stopped : Bool
  deriving DecidableEq, Repr

namespace Heartbeat

/-- The name of the factory that builds heartbeats. -/
def factoryName : String := "heartbeat"

def start (interval : Nat) : Heartbeat := ⟨interval, none, 0, false⟩

/-- A turn. The time to a beat counts from the turn of the beat before. The signal comes before a
beat that is due, and means the end in whatever way it changes, the loss of the sender included. -/
def turn (heartbeat : Heartbeat) (moment : Moment) : Heartbeat :=
  if heartbeat.stopped then heartbeat
  else if moment.signalled then { heartbeat with stopped := true }
  else
    let next := some (moment.clock + heartbeat.interval)
    match heartbeat.due with
    | none => { heartbeat with due := next }
    | some due =>
      if due ≤ moment.clock then { heartbeat with due := next, beats := heartbeat.beats + 1 }
      else heartbeat

/-- The heartbeat behind some turns, the latest of which comes first. -/
def behind (interval : Nat) (turns : List Moment) : Heartbeat :=
  turns.foldr (fun moment heartbeat => heartbeat.turn moment) (start interval)

def defaultInterval : Nat := 60

/-- One field of the settings. There are no others. -/
def settingsField (key : String) (value : Tree) (_ : Nat) : Shaped Nat :=
  match key with
  | "interval_secs" => Shape.natural Document.maxInteger "u64" value
  | _ => .error (.unknownField key "`interval_secs`")

def settings : Tree → Shaped Nat
  | .table entries => Shape.readEntries settingsField entries defaultInterval
  | .sequence items => Shape.readFields true settingsField ["interval_secs"] items defaultInterval
  | found => .error (.type found "struct HeartbeatSettings")

/-- The interval that a settings document names, which has to be positive. -/
def intervalOf (document : Document) : Except DbError Nat :=
  match settings (.ofDocument document) with
  | .error fault => .error (.settings fault.message)
  | .ok 0 => .error (.settings "heartbeat interval_secs must be positive")
  | .ok interval => .ok interval

end Heartbeat

end DocumentServer
