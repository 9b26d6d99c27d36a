import DocumentServer.Proofs.Utility.Tasks

/-! A registry as a plain map. A roster gives each identifier its configuration, its utility and a
task of its own, and says of every task whether it was told to stop and whether it has ended;
`Roster.Does` states what each call answers and makes of the roster. A task ends in a turn of its
own and never in a call: when that is, the roster leaves open, except that a task that was told to
stop has no turn but one. A registry does the same in every run: it answers as its roster says, a
call that fails leaves it exactly as it was, and every task that it ever started has one identifier
or was told to stop. -/
namespace DocumentServer

namespace Registry

/-! ### Calls -/

/-- What happens to a registry: a call, a turn of one of its tasks, or that time passes. -/
inductive Call where
  | register (name : String) (factory : Factory)
  | addUtility (config : UtilityConfig)
  | addTask (id : String) (config : Option UtilityConfig) (routine : Routine)
  | cancel (id : String)
  | delete (id : String)
  | shutdownAll
  | turn (task : Nat)
  | pass (seconds : Nat)
  | hasFactory (name : String)
  | utility (id : String)
  | config (id : String)
  | active
  | isRunning (id : String)

inductive Answer where
  | done
  | utility (utility : Option Utility)
  | config (config : Option UtilityConfig)
  | flag (value : Bool)
  | names (ids : List String)

/-- An answer with the registry afterwards, or an error with the registry as it was. -/
def answered (registry : Registry) :
    Except DbError (Answer × Registry) → Except DbError Answer × Registry
  | .ok (answer, registry) => (.ok answer, registry)
  | .error error => (.error error, registry)

def call (registry : Registry) : Call → Except DbError Answer × Registry
  | .register name factory => (.ok .done, registry.register name factory)
  | .addUtility config =>
    registry.answered ((registry.addUtility config).map fun added =>
      (.utility (some added.1), added.2))
  | .addTask id config routine =>
    registry.answered ((registry.addTask id config routine).map (.done, ·))
  | .cancel id => registry.answered ((registry.cancel id).map (.done, ·))
  | .delete id =>
    registry.answered ((registry.delete id).map fun deleted => (.config deleted.1, deleted.2))
  | .shutdownAll => (.ok .done, registry.shutdownAll)
  | .turn task => (.ok .done, registry.turn task)
  | .pass seconds => (.ok .done, registry.pass seconds)
  | .hasFactory name => (.ok (.flag (registry.factories.contains name)), registry)
  | .utility id => (.ok (.utility (registry.utility? id)), registry)
  | .config id => (.ok (.config (registry.config? id)), registry)
  | .active => (.ok (.names registry.active), registry)
  | .isRunning id => (.ok (.flag (registry.isRunning id)), registry)

def callEach (registry : Registry) : List Call → List (Except DbError Answer) × Registry
  | [] => ([], registry)
  | call :: rest =>
    let (answer, registry) := registry.call call
    let (answers, registry) := registry.callEach rest
    (answer :: answers, registry)

end Registry

/-! ### Rosters -/

/-- The factories and utilities by name, and the tasks by number. -/
@[ext] structure Roster where
  factories : String → Option Factory
  entries : String → Option Slot
  /-- The number of tasks that were started. -/
  started : Nat
  told : Nat → Prop
  ended : Nat → Prop

namespace Roster

open Registry (Call)

def empty : Roster := ⟨fun _ => none, fun _ => none, 0, fun _ => False, fun _ => False⟩

def add (roster : Roster) (id : String) (config : Option UtilityConfig)
    (utility : Option Utility) : Roster :=
  { roster with
    entries := fun other =>
      if other = id then some ⟨roster.started, config, utility⟩ else roster.entries other
    started := roster.started + 1 }

/-- What a call on a roster answers, and the roster afterwards. -/
inductive Does (roster : Roster) : Call → Except DbError Registry.Answer → Roster → Prop
  | register (name : String) (factory : Factory) :
      Does roster (.register name factory) (.ok .done)
        { roster with
          factories := fun other => if other = name then some factory else roster.factories other }
  | unknownFactory {config : UtilityConfig} :
      roster.factories config.factory = none →
      Does roster (.addUtility config) (.error (.unknownFactory config.factory)) roster
  | duplicateUtility {config : UtilityConfig} {factory : Factory} :
      roster.factories config.factory = some factory → (roster.entries config.provides).isSome →
      Does roster (.addUtility config) (.error (.duplicateIdentifier config.provides)) roster
  | refusedSettings {config : UtilityConfig} {factory : Factory} {error : DbError} :
      roster.factories config.factory = some factory → roster.entries config.provides = none →
      factory config.settings = .error error →
      Does roster (.addUtility config) (.error error) roster
  | addUtility {config : UtilityConfig} {factory : Factory} {utility : Utility} :
      roster.factories config.factory = some factory → roster.entries config.provides = none →
      factory config.settings = .ok utility →
      Does roster (.addUtility config) (.ok (.utility (some utility)))
        (roster.add config.provides (some config) (some utility))
  | duplicateTask {id : String} (config : Option UtilityConfig) (routine : Routine) :
      (roster.entries id).isSome →
      Does roster (.addTask id config routine) (.error (.duplicateIdentifier id)) roster
  | addTask {id : String} (config : Option UtilityConfig) (routine : Routine) :
      roster.entries id = none →
      Does roster (.addTask id config routine) (.ok .done) (roster.add id config none)
  | unknownCancel {id : String} : roster.entries id = none →
      Does roster (.cancel id) (.error (.unknownIdentifier id)) roster
  | cancel {id : String} {slot : Slot} : roster.entries id = some slot →
      Does roster (.cancel id) (.ok .done)
        { roster with
          told := fun task => roster.told task ∨ task = slot.task ∧ ¬ roster.ended task }
  | unknownDelete {id : String} : roster.entries id = none →
      Does roster (.delete id) (.error (.unknownIdentifier id)) roster
  | delete {id : String} {slot : Slot} : roster.entries id = some slot →
      Does roster (.delete id) (.ok (.config slot.config))
        { roster with
          entries := fun other => if other = id then none else roster.entries other
          told := fun task => roster.told task ∨ task = slot.task }
  | shutdownAll :
      Does roster .shutdownAll (.ok .done)
        { roster with
          entries := fun _ => none
          told := fun task =>
            roster.told task ∨ ∃ id slot, roster.entries id = some slot ∧ slot.task = task }
  | turn {task : Nat} {ended : Nat → Prop} :
      (∀ other, other ≠ task → (ended other ↔ roster.ended other)) →
      (roster.ended task ∨ roster.told task → ended task) →
      (ended task → task < roster.started) →
      Does roster (.turn task) (.ok .done) { roster with ended }
  | pass (seconds : Nat) : Does roster (.pass seconds) (.ok .done) roster
  | hasFactory (name : String) :
      Does roster (.hasFactory name) (.ok (.flag (roster.factories name).isSome)) roster
  | utility (id : String) :
      Does roster (.utility id) (.ok (.utility ((roster.entries id).bind (·.utility)))) roster
  | config (id : String) :
      Does roster (.config id) (.ok (.config ((roster.entries id).bind (·.config)))) roster
  | active {ids : List String} : ids.Pairwise (· < ·) →
      (∀ id, id ∈ ids ↔ (roster.entries id).isSome) → Does roster .active (.ok (.names ids)) roster
  | isRunning {id : String} {value : Bool} :
      (value = true ↔ ∃ slot, roster.entries id = some slot ∧ ¬ roster.ended slot.task) →
      Does roster (.isRunning id) (.ok (.flag value)) roster

/-- What calls one after the other answer, and the roster afterwards. -/
inductive Runs : Roster → List Call → List (Except DbError Registry.Answer) → Roster → Prop
  | nil (roster : Roster) : Runs roster [] [] roster
  | cons {roster roster' roster'' : Roster} {call : Call} {answer : Except DbError Registry.Answer}
      {calls : List Call} {answers : List (Except DbError Registry.Answer)} :
      Does roster call answer roster' → Runs roster' calls answers roster'' →
      Runs roster (call :: calls) (answer :: answers) roster''

end Roster

namespace Registry

/-- What the identifiers of a registry stand for, and what is known of its tasks. -/
def roster (registry : Registry) : Roster where
  factories := registry.factories.get?
  entries := registry.slots.get?
  started := registry.tasks.size
  told task := registry.tasks.told task = true
  ended task := registry.tasks.hasEnded task = true

variable {registry : Registry} {id : String} {slot : Slot}

theorem Tidy.stop (h : registry.Tidy) (hslot : registry.slots.get? id = some slot) :
    (registry.tasks.stop slot.task).told slot.task = true ∧
      ∀ task, registry.tasks.told task = true →
        (registry.tasks.stop slot.task).told task = true := by
  have hstarted : slot.task < registry.tasks.size := h.started id slot.task ⟨slot, hslot, rfl⟩
  exact ⟨(registry.tasks.told_stop hstarted _).2 (.inr rfl),
    fun task htold => (registry.tasks.told_stop hstarted task).2 (.inl htold)⟩

/-- A task that was told to stop counts as running until its turn. -/
example :
    (empty.callEach [.addTask "a" none fun _ => false, .cancel "a", .isRunning "a", .turn 0,
      .isRunning "a", .active]).1 =
      [.ok .done, .ok .done, .ok (.flag true), .ok .done, .ok (.flag false),
        .ok (.names ["a"])] := rfl

end Registry

end DocumentServer
