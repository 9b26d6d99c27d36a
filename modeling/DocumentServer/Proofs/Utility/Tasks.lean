import DocumentServer.Proofs.KeyMap
import DocumentServer.Utility.Registry

/-! Tasks and who holds them. A task that was told to stop ends in its next turn, and one that was
not ends when its routine is through. A utility is started with a task of its own, or fails for a
reason that `Fails` names. A registry numbers its tasks in the order of their starts and keeps them
all. `Tidy` says that no two identifiers share a task and that a task without an identifier has been
told to stop; every way to change a registry keeps that. -/
namespace DocumentServer

namespace Task

variable (task : Task) (clock : Nat)

@[simp] theorem signalled_turn : (task.turn clock).signalled = task.signalled := by
  unfold turn
  split
  · rfl
  · split <;> rfl

@[simp] theorem aborted_turn : (task.turn clock).aborted = task.aborted := by
  unfold turn
  split
  · rfl
  · split <;> rfl

end Task

namespace Tasks

def size (tasks : Tasks) : Nat := tasks.started.length

/-- Whether a task was told to stop: its signal was sent, and it is not to go on. -/
def told (tasks : Tasks) (task : Nat) : Bool :=
  tasks.started[task]?.any fun task => task.signalled && task.aborted

def hasEnded (tasks : Tasks) (task : Nat) : Bool := tasks.started[task]?.any (·.ended)

variable (tasks : Tasks) (routine : Routine) {task other : Nat}

theorem size_spawn : (tasks.spawn routine).2.size = tasks.size + 1 := by
  simp [spawn, size]

/-- Starting another task does not change what holds of a task, if it does not hold of one that was
just started. -/
theorem any_spawn (task : Nat) {p : Task → Bool} (h : p (.start routine) = false) :
    (tasks.spawn routine).2.started[task]?.any p = tasks.started[task]?.any p := by
  show (tasks.started ++ [Task.start routine])[task]?.any p = _
  by_cases htask : task < tasks.started.length
  · rw [List.getElem?_append_left htask]
  · rw [List.getElem?_append_right (Nat.not_lt.1 htask),
      List.getElem?_eq_none (Nat.not_lt.1 htask), List.getElem?_singleton]
    split
    · exact h
    · rfl

theorem told_spawn (task : Nat) : (tasks.spawn routine).2.told task = tasks.told task :=
  tasks.any_spawn routine task rfl

/-- What holds of a task once one of the tasks has changed. -/
theorem any_modify (started : List Task) (change : Task → Task) (p : Task → Bool)
    (task other : Nat) :
    (started.modify task change)[other]?.any p =
      if task = other then started[other]?.any fun task => p (change task)
        else started[other]?.any p := by
  rw [List.getElem?_modify]
  cases started[other]? <;> split <;> rfl

theorem told_stop (h : task < tasks.size) (other : Nat) :
    (tasks.stop task).told other = true ↔ tasks.told other = true ∨ other = task := by
  unfold told stop
  rw [any_modify]
  by_cases hother : task = other
  · subst hother
    simp [Task.stop, show tasks.started[task]? = some _ from List.getElem?_eq_getElem h]
  · simp [hother, Ne.symm hother]

end Tasks

/-- A heartbeat goes on until its signal comes. -/
theorem Heartbeat.stopped_behind (interval : Nat) (turns : List Moment) :
    (behind interval turns).stopped = turns.any (·.signalled) := by
  induction turns with
  | nil => rfl
  | cons moment rest ih =>
    have hturn (heartbeat : Heartbeat) :
        (heartbeat.turn moment).stopped = (heartbeat.stopped || moment.signalled) := by
      unfold turn
      grind
    rw [List.any_cons, Bool.or_comm, ← ih]
    exact hturn (behind interval rest)

namespace Registry

/-! ### Starting a utility -/

/-- A factory of the registry builds what a configuration asks for. -/
def Builds (registry : Registry) (config : UtilityConfig) (utility : Utility) : Prop :=
  ∃ factory, registry.factories.get? config.factory = some factory ∧
    factory config.settings = .ok utility

/-- Why a configuration can not be started behind others that were. -/
inductive Fails (registry : Registry) (started : List UtilityConfig) (config : UtilityConfig) :
    DbError → Prop
  | unknownFactory : registry.factories.get? config.factory = none →
      Fails registry started config (.unknownFactory config.factory)
  | duplicate {factory : Factory} : registry.factories.get? config.factory = some factory →
      registry.slots.contains config.provides = true ∨
        config.provides ∈ started.map (·.provides) →
      Fails registry started config (.duplicateIdentifier config.provides)
  | refused {factory : Factory} {error : DbError} :
      registry.factories.get? config.factory = some factory →
      registry.slots.contains config.provides = false →
      config.provides ∉ started.map (·.provides) → factory config.settings = .error error →
      Fails registry started config error

/-- The registry once the utility of a configuration was started. -/
def withUtility (registry : Registry) (config : UtilityConfig) (utility : Utility) : Registry :=
  registry.occupy config.provides utility.routine (some config) (some utility)

/-- A utility is started if a factory builds it and its identifier is free, and fails otherwise. -/
theorem addUtility_cases (registry : Registry) (config : UtilityConfig) :
    (∃ utility, registry.Builds config utility ∧
      registry.slots.contains config.provides = false ∧
      registry.addUtility config = .ok (utility, registry.withUtility config utility)) ∨
    ∃ error, registry.Fails [] config error ∧ registry.addUtility config = .error error := by
  unfold addUtility
  cases hfactory : registry.factories.get? config.factory with
  | none => exact .inr ⟨_, .unknownFactory hfactory, rfl⟩
  | some factory =>
    cases hcontains : registry.slots.contains config.provides with
    | true => exact .inr ⟨_, .duplicate hfactory (.inl hcontains), rfl⟩
    | false =>
      cases hbuilt : factory config.settings with
      | error error =>
        exact .inr ⟨error, .refused hfactory hcontains List.not_mem_nil hbuilt, by simp [hbuilt]⟩
      | ok utility =>
        exact .inl ⟨utility, ⟨factory, hfactory, hbuilt⟩, rfl, by simp [hbuilt, withUtility]⟩

/-! ### Who holds a task -/

/-- An identifier stands for a task. -/
def Holds (registry : Registry) (id : String) (task : Nat) : Prop :=
  ∃ slot, registry.slots.get? id = some slot ∧ slot.task = task

/-- Every task has one identifier or was told to stop. -/
structure Tidy (registry : Registry) : Prop where
  started : ∀ id task, registry.Holds id task → task < registry.tasks.size
  apart : ∀ id id' task, registry.Holds id task → registry.Holds id' task → id = id'
  kept : ∀ task < registry.tasks.size,
    (∃ id, registry.Holds id task) ∨ registry.tasks.told task = true

variable {registry : Registry}

/-- The task of an identifier that was free is a new one. -/
theorem holds_occupy (routine : Routine) (config : Option UtilityConfig) (utility : Option Utility)
    (id other : String) (task : Nat) :
    (registry.occupy id routine config utility).Holds other task ↔
      if other = id then task = registry.tasks.size else registry.Holds other task := by
  show (∃ slot, (registry.slots.insert id _).get? other = some slot ∧ slot.task = task) ↔ _
  rw [KeyMap.get?_insert]
  by_cases h : other = id
  · rw [if_pos h, if_pos h]
    constructor
    · rintro ⟨slot, hslot, rfl⟩
      cases hslot
      rfl
    · rintro rfl
      exact ⟨_, rfl, rfl⟩
  · rw [if_neg h, if_neg h]
    exact Iff.rfl

theorem Tidy.occupy (h : registry.Tidy) (routine : Routine) (config : Option UtilityConfig)
    (utility : Option Utility) {id : String} (hfree : registry.slots.contains id = false) :
    (registry.occupy id routine config utility).Tidy := by
  have hsize : (registry.occupy id routine config utility).tasks.size = registry.tasks.size + 1 :=
    registry.tasks.size_spawn routine
  constructor
  case started =>
    intro other task hholds
    rw [holds_occupy] at hholds
    rw [hsize]
    split at hholds
    · omega
    · have := h.started other task hholds
      omega
  case apart =>
    intro a b task ha hb
    rw [holds_occupy] at ha hb
    split at ha
    next heq =>
      split at hb
      next heq' => rw [heq, heq']
      next =>
        have := h.started b task hb
        omega
    next =>
      split at hb
      next =>
        have := h.started a task ha
        omega
      next => exact h.apart a b task ha hb
  case kept =>
    intro task htask
    rw [hsize] at htask
    by_cases hnew : task = registry.tasks.size
    · exact .inl ⟨id, by rw [holds_occupy, if_pos rfl]; exact hnew⟩
    · rcases h.kept task (by omega) with ⟨other, hother⟩ | htold
      · have hne : other ≠ id := by
          rintro rfl
          obtain ⟨slot, hslot, _⟩ := hother
          rw [KeyMap.contains, hslot] at hfree
          cases hfree
        exact .inl ⟨other, by rw [holds_occupy, if_neg hne]; exact hother⟩
      · exact .inr ((registry.tasks.told_spawn routine task).trans htold)

/-- The tasks may change as long as none is lost and none that was told to stop is told otherwise;
identifiers may be freed whose tasks were told to stop. -/
theorem Tidy.change (h : registry.Tidy) {tasks : Tasks} {slots : KeyMap Slot}
    (hsize : tasks.size = registry.tasks.size)
    (htold : ∀ task, registry.tasks.told task = true → tasks.told task = true)
    (hslots : ∀ id slot, slots.get? id = some slot → registry.slots.get? id = some slot)
    (hfreed : ∀ id slot, registry.slots.get? id = some slot → slots.get? id = none →
      tasks.told slot.task = true) :
    Tidy { registry with slots, tasks } := by
  constructor
  case started =>
    rintro id task ⟨slot, hslot, rfl⟩
    show slot.task < tasks.size
    rw [hsize]
    exact h.started id _ ⟨slot, hslots id slot hslot, rfl⟩
  case apart =>
    rintro a b task ⟨slot, hslot, htask⟩ ⟨slot', hslot', htask'⟩
    exact h.apart a b task ⟨slot, hslots a slot hslot, htask⟩ ⟨slot', hslots b slot' hslot', htask'⟩
  case kept =>
    intro task htask
    replace htask : task < registry.tasks.size := hsize ▸ htask
    rcases h.kept task htask with ⟨id, slot, hslot, rfl⟩ | htask
    · cases hget : slots.get? id with
      | none => exact .inr (hfreed id slot hslot hget)
      | some slot' =>
        have hsame := hslots id slot' hget
        rw [hslot] at hsame
        cases hsame
        exact .inl ⟨id, slot, hget, rfl⟩
    · exact .inr (htold task htask)

end Registry

end DocumentServer
