import DocumentServer.Config.Basic
import DocumentServer.Utility.Heartbeat

/-! Utilities under their identifiers. An identifier stays taken when its task ends or is cancelled,
and becomes free when it is deleted. A call that fails starts nothing and changes nothing. -/
namespace DocumentServer

/-- A service that runs in the background. -/
inductive Utility where
  | heartbeat (interval : Nat)
  /-- A service of any other kind. -/
  | other (routine : Routine)

def Utility.routine : Utility → Routine
  | heartbeat interval => fun turns => (Heartbeat.behind interval turns).stopped
  | other routine => routine

/-- Builds a utility from its settings. -/
abbrev Factory := Document → Except DbError Utility

def Factory.heartbeat : Factory := fun settings => (Heartbeat.intervalOf settings).map .heartbeat

/-- What an identifier stands for. -/
structure Slot where
  /-- The number of its task. -/
  task : Nat
  config : Option UtilityConfig
  /-- What a factory built, unless the task came without one. -/
  utility : Option Utility

structure Registry where
  factories : KeyMap Factory
  slots : KeyMap Slot
  /-- Every task that was started, those of deleted identifiers included. -/
  tasks : Tasks

namespace Registry

def empty : Registry := ⟨∅, ∅, .none⟩

def register (registry : Registry) (name : String) (factory : Factory) : Registry :=
  { registry with factories := registry.factories.insert name factory }

/-- Registers the factories that every server has. -/
def registerBuiltin (registry : Registry) : Registry :=
  registry.register Heartbeat.factoryName .heartbeat

def occupy (registry : Registry) (id : String) (routine : Routine) (config : Option UtilityConfig)
    (utility : Option Utility) : Registry :=
  let (task, tasks) := registry.tasks.spawn routine
  { registry with slots := registry.slots.insert id ⟨task, config, utility⟩, tasks }

def addUtility (registry : Registry) (config : UtilityConfig) :
    Except DbError (Utility × Registry) :=
  match registry.factories.get? config.factory with
  | none => .error (.unknownFactory config.factory)
  | some factory =>
    if registry.slots.contains config.provides then
      .error (.duplicateIdentifier config.provides)
    else
      match factory config.settings with
      | .error error => .error error
      | .ok utility =>
        .ok (utility, registry.occupy config.provides utility.routine (some config) (some utility))

/-- Starts a task that no factory built. -/
def addTask (registry : Registry) (id : String) (config : Option UtilityConfig)
    (routine : Routine) : Except DbError Registry :=
  if registry.slots.contains id then .error (.duplicateIdentifier id)
  else .ok (registry.occupy id routine config none)

/-- Tells the task of an identifier to stop, unless it has ended. The identifier stays taken. -/
def cancel (registry : Registry) (id : String) : Except DbError Registry :=
  match registry.slots.get? id with
  | none => .error (.unknownIdentifier id)
  | some slot =>
    .ok (if registry.tasks.isRunning slot.task then
      { registry with tasks := registry.tasks.stop slot.task } else registry)

/-- Tells the task of an identifier to stop and frees the identifier. Gives the configuration it was
started with. -/
def delete (registry : Registry) (id : String) :
    Except DbError (Option UtilityConfig × Registry) :=
  match registry.slots.get? id with
  | none => .error (.unknownIdentifier id)
  | some slot =>
    .ok (slot.config,
      { registry with slots := registry.slots.erase id, tasks := registry.tasks.stop slot.task })

/-- The utility that a factory built for an identifier. -/
def utility? (registry : Registry) (id : String) : Option Utility :=
  (registry.slots.get? id).bind (·.utility)

def config? (registry : Registry) (id : String) : Option UtilityConfig :=
  (registry.slots.get? id).bind (·.config)

/-- The taken identifiers in ascending order. -/
def active (registry : Registry) : List String := registry.slots.keys

def isRunning (registry : Registry) (id : String) : Bool :=
  (registry.slots.get? id).any fun slot => registry.tasks.isRunning slot.task

/-- Tells every task to stop and frees every identifier. -/
def shutdownAll (registry : Registry) : Registry :=
  { registry with
    slots := ∅
    tasks :=
      registry.slots.entries.foldl (fun tasks slot => tasks.stop slot.2.task) registry.tasks }

def turn (registry : Registry) (task : Nat) : Registry :=
  { registry with tasks := registry.tasks.turn task }

/-- Some seconds later, before any task had a turn. -/
def pass (registry : Registry) (seconds : Nat) : Registry :=
  { registry with tasks := registry.tasks.pass seconds }

/-- Starts the utilities of several configurations up to the first that fails. Gives the
identifiers, or the error, with what was started. -/
def startAll (registry : Registry) :
    List UtilityConfig → Except DbError (List String) × Registry
  | [] => (.ok [], registry)
  | config :: rest =>
    match registry.addUtility config with
    | .error error => (.error error, registry)
    | .ok (_, registry) =>
      let (started, registry) := registry.startAll rest
      (started.map (config.provides :: ·), registry)

end Registry

end DocumentServer
