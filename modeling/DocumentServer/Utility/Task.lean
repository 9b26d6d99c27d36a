/-! Tasks that run in the background, on a clock of whole seconds. A task is started before it runs:
it gets turns later, in any order, and each turn takes it as far as it can go. One that is told to
stop goes on counting as running until its next turn, which is its last. A task keeps the number it
was started under. -/
namespace DocumentServer

structure Moment where
  clock : Nat
  /-- Whether its signal to stop has come. -/
  signalled : Bool
  deriving DecidableEq, Repr

/-- What a task does: whether it is through, by itself or by a breakdown, behind the turns that it
has had. The latest turn comes first. -/
abbrev Routine := List Moment → Bool

structure Task where
  routine : Routine
  turns : List Moment
  signalled : Bool
  /-- Whether it is not to go on. -/
  aborted : Bool
  ended : Bool

namespace Task

/-- A task that waits for its first turn. -/
def start (routine : Routine) : Task := ⟨routine, [], false, false, false⟩

/-- Tells a task to stop: sends its signal and has it ended at its next turn. -/
def stop (task : Task) : Task := { task with signalled := true, aborted := true }

/-- A turn, in which a task that was aborted does nothing more. -/
def turn (clock : Nat) (task : Task) : Task :=
  if task.ended then task
  else if task.aborted then { task with ended := true }
  else
    let turns := ⟨clock, task.signalled⟩ :: task.turns
    { task with turns, ended := task.routine turns }

end Task

/-- The clock and every task that was started, by number. -/
structure Tasks where
  clock : Nat
  started : List Task

namespace Tasks

def none : Tasks := ⟨0, []⟩

/-- Starts a task and gives its number. -/
def spawn (tasks : Tasks) (routine : Routine) : Nat × Tasks :=
  (tasks.started.length, { tasks with started := tasks.started ++ [.start routine] })

def stop (tasks : Tasks) (task : Nat) : Tasks :=
  { tasks with started := tasks.started.modify task Task.stop }

def turn (tasks : Tasks) (task : Nat) : Tasks :=
  { tasks with started := tasks.started.modify task (Task.turn tasks.clock) }

def isRunning (tasks : Tasks) (task : Nat) : Bool := tasks.started[task]?.any (!·.ended)

def pass (tasks : Tasks) (seconds : Nat) : Tasks := { tasks with clock := tasks.clock + seconds }

end Tasks

end DocumentServer
