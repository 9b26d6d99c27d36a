import DocumentServer.Application
import DocumentServer.Proofs.Utility.Tasks
import Mathlib.Data.List.Forall2
import Mathlib.Data.List.Nodup

/-! Starting the utilities that a configuration asks for. They are started in their order up to the
first that fails, so the registry gains the utilities of a first part of the list and nothing else:
each under its identifier, with a task of its own behind the older ones. Once the first of them is
there, the list can not be started again. -/
namespace DocumentServer

namespace Registry

/-! ### What can be started -/

/-- Every configuration can be built, and each has an identifier of its own that is free. -/
structure Startable (registry : Registry) (configs : List UtilityConfig) : Prop where
  built : ∀ config ∈ configs, ∃ utility, registry.Builds config utility
  distinct : (configs.map (·.provides)).Nodup
  free : ∀ config ∈ configs, registry.slots.contains config.provides = false

/-- `after` is `before` with the utilities of some configurations, and nothing besides. -/
structure Gained (before : Registry) (started : List UtilityConfig) (after : Registry) : Prop where
  factories : after.factories = before.factories
  clock : after.tasks.clock = before.tasks.clock
  tasks : ∃ utilities, List.Forall₂ before.Builds started utilities ∧
    after.tasks.started =
      before.tasks.started ++ utilities.map fun utility => Task.start utility.routine
  taken : ∀ (i : Nat) (h : i < started.length), ∃ utility, before.Builds started[i] utility ∧
    after.slots.get? started[i].provides =
      some ⟨before.tasks.size + i, some started[i], some utility⟩
  others : ∀ id, id ∉ started.map (·.provides) → after.slots.get? id = before.slots.get? id

/-- What starting utilities answers and leaves when those of `started` were started. -/
inductive Starts (registry : Registry) (configs : List UtilityConfig) :
    List UtilityConfig → Except DbError (List String) → Registry → Prop
  | all {after : Registry} : registry.Startable configs → registry.Gained configs after →
      Starts registry configs configs (.ok (configs.map (·.provides))) after
  | upTo {started rest : List UtilityConfig} {config : UtilityConfig} {error : DbError}
      {after : Registry} : configs = started ++ config :: rest → registry.Startable started →
      registry.Fails started config error → registry.Gained started after →
      Starts registry configs started (.error error) after

variable {registry middle after : Registry} {config : UtilityConfig} {utility : Utility}
  {started rest : List UtilityConfig} {error : DbError}

theorem startable_nil : registry.Startable [] := ⟨nofun, .nil, nofun⟩

/-- What fails can not be among what can be started. -/
theorem Fails.not_startable (h : registry.Fails started config error) :
    ¬ registry.Startable (started ++ config :: rest) := by
  intro hstartable
  have hmem : config ∈ started ++ config :: rest := by simp
  obtain ⟨utility, factory, hfactory, hbuilt⟩ := hstartable.built config hmem
  have hfree := hstartable.free config hmem
  cases h with
  | unknownFactory hnone =>
    rw [hfactory] at hnone
    cases hnone
  | duplicate _ htaken =>
    rcases htaken with hcontains | hearlier
    · rw [hfree] at hcontains
      cases hcontains
    · have hdistinct := hstartable.distinct
      rw [List.map_append, List.map_cons] at hdistinct
      exact List.disjoint_of_nodup_append hdistinct hearlier List.mem_cons_self
  | refused hfactory' _ _ herror =>
    rw [hfactory] at hfactory'
    cases hfactory'
    rw [hbuilt] at herror
    cases herror

/-! ### One utility -/

theorem gained_nil (registry : Registry) : registry.Gained [] registry where
  factories := rfl
  clock := rfl
  tasks := ⟨[], .nil, (List.append_nil _).symm⟩
  taken := nofun
  others := fun _ _ => rfl

theorem gained_withUtility (hbuilds : registry.Builds config utility) :
    registry.Gained [config] (registry.withUtility config utility) where
  factories := rfl
  clock := rfl
  tasks := ⟨[utility], .cons hbuilds .nil, rfl⟩
  taken := by
    intro i hi
    obtain rfl : i = 0 := by simpa using hi
    exact ⟨utility, hbuilds, (registry.slots.get?_insert _ _ _).trans (if_pos rfl)⟩
  others := by
    intro id hid
    have hne : id ≠ config.provides := by simpa using hid
    exact (registry.slots.get?_insert _ _ _).trans (if_neg hne)

theorem Gained.builds_iff (h : registry.Gained started middle) (config : UtilityConfig)
    (utility : Utility) : middle.Builds config utility ↔ registry.Builds config utility := by
  rw [Builds, h.factories, Builds]

theorem Gained.contains (h : registry.Gained started middle) (id : String) :
    middle.slots.contains id = true ↔
      registry.slots.contains id = true ∨ id ∈ started.map (·.provides) := by
  by_cases hid : id ∈ started.map (·.provides)
  · obtain ⟨i, hi, hget⟩ := List.getElem_of_mem hid
    rw [List.length_map] at hi
    rw [List.getElem_map] at hget
    obtain ⟨utility, -, htaken⟩ := h.taken i hi
    rw [hget] at htaken
    simp [KeyMap.contains, htaken, hid]
  · simp [KeyMap.contains, h.others id hid, hid]

/-- What was gained first and what was gained then. -/
theorem Gained.append {later : List UtilityConfig} (h : registry.Gained started middle)
    (hlater : middle.Gained later after)
    (hdistinct : ((started ++ later).map (·.provides)).Nodup) :
    registry.Gained (started ++ later) after := by
  obtain ⟨utilities, hbuilds, htasks⟩ := h.tasks
  obtain ⟨utilities', hbuilds', htasks'⟩ := hlater.tasks
  have hsize : middle.tasks.size = registry.tasks.size + started.length := by
    rw [Tasks.size, htasks, List.length_append, List.length_map, hbuilds.length_eq]
    rfl
  rw [List.map_append] at hdistinct
  constructor
  case factories => rw [hlater.factories, h.factories]
  case clock => rw [hlater.clock, h.clock]
  case tasks =>
    refine ⟨utilities ++ utilities', ?_, ?_⟩
    · exact List.rel_append hbuilds
        (hbuilds'.imp fun config utility => (h.builds_iff config utility).1)
    · rw [htasks', htasks, List.map_append, List.append_assoc]
  case taken =>
    intro i hi
    by_cases hearlier : i < started.length
    · have hmem : started[i].provides ∈ started.map (·.provides) :=
        List.mem_map_of_mem (List.getElem_mem hearlier)
      have hnotLater := List.disjoint_of_nodup_append hdistinct hmem
      rw [List.getElem_append_left hearlier, hlater.others _ hnotLater]
      exact h.taken i hearlier
    · have hbehind : i - started.length < later.length := by
        rw [List.length_append] at hi
        omega
      have hposition : registry.tasks.size + started.length + (i - started.length) =
          registry.tasks.size + i := by omega
      obtain ⟨utility, hbuilt, htaken⟩ := hlater.taken _ hbehind
      rw [List.getElem_append_right (by omega)]
      rw [hsize, hposition] at htaken
      exact ⟨utility, (h.builds_iff _ utility).1 hbuilt, htaken⟩
  case others =>
    intro id hid
    rw [List.map_append, List.mem_append, not_or] at hid
    rw [hlater.others id hid.2, h.others id hid.1]

/-- What can be started behind others is what can be started with them. -/
theorem Gained.startable_append {later : List UtilityConfig} (h : registry.Gained started middle)
    (hstarted : registry.Startable started) (hlater : middle.Startable later) :
    registry.Startable (started ++ later) := by
  have hfree (config : UtilityConfig) (hconfig : config ∈ later) :
      registry.slots.contains config.provides = false ∧
        config.provides ∉ started.map (·.provides) := by
    have hnot : ¬ middle.slots.contains config.provides = true := by
      rw [hlater.free config hconfig]
      exact Bool.false_ne_true
    rw [h.contains, not_or] at hnot
    exact ⟨Bool.eq_false_iff.2 hnot.1, hnot.2⟩
  constructor
  case built =>
    intro config hconfig
    rcases List.mem_append.1 hconfig with hconfig | hconfig
    · exact hstarted.built config hconfig
    · obtain ⟨utility, hbuilt⟩ := hlater.built config hconfig
      exact ⟨utility, (h.builds_iff config utility).1 hbuilt⟩
  case distinct =>
    rw [List.map_append]
    refine List.Nodup.append hstarted.distinct hlater.distinct fun id hid hid' => ?_
    obtain ⟨config, hconfig, rfl⟩ := List.mem_map.1 hid'
    exact (hfree config hconfig).2 hid
  case free =>
    intro config hconfig
    rcases List.mem_append.1 hconfig with hconfig | hconfig
    · exact hstarted.free config hconfig
    · exact (hfree config hconfig).1

/-- What fails behind others fails behind all that were started before it. -/
theorem Gained.fails_append {later : List UtilityConfig} (h : registry.Gained started middle)
    (hfails : middle.Fails later config error) :
    registry.Fails (started ++ later) config error := by
  have hmem : config.provides ∈ (started ++ later).map (·.provides) ↔
      config.provides ∈ started.map (·.provides) ∨ config.provides ∈ later.map (·.provides) := by
    rw [List.map_append, List.mem_append]
  cases hfails with
  | unknownFactory hnone => exact .unknownFactory (h.factories ▸ hnone)
  | duplicate hfactory htaken =>
    refine .duplicate (h.factories ▸ hfactory) ?_
    rw [h.contains, or_assoc] at htaken
    rwa [hmem]
  | refused hfactory hfree hother herror =>
    rw [← Bool.not_eq_true, h.contains, not_or] at hfree
    refine .refused (h.factories ▸ hfactory) (Bool.eq_false_iff.2 hfree.1) ?_ herror
    rw [hmem]
    exact not_or.2 ⟨hfree.2, hother⟩

/-! ### Several utilities -/

theorem starts_startAll (registry : Registry) (configs : List UtilityConfig) :
    ∃ started, registry.Starts configs started (registry.startAll configs).1
      (registry.startAll configs).2 := by
  induction configs generalizing registry with
  | nil => exact ⟨[], .all startable_nil (gained_nil registry)⟩
  | cons config rest ih =>
    unfold startAll
    obtain ⟨utility, hbuilds, hfree, hadd⟩ | ⟨error, hfails, hadd⟩ :=
      registry.addUtility_cases config
    · let middle := registry.withUtility config utility
      have hgained : registry.Gained [config] middle := gained_withUtility hbuilds
      have hstartable : registry.Startable [config] :=
        ⟨by simpa using ⟨utility, hbuilds⟩, List.nodup_singleton _, by simpa using hfree⟩
      obtain ⟨started, hstarts⟩ := ih middle
      rw [hadd]
      dsimp only
      rcases hstartAll : middle.startAll rest with ⟨answer, after⟩
      rw [hstartAll] at hstarts
      cases hstarts with
      | all hall hafter =>
        have hwhole := hgained.startable_append hstartable hall
        exact ⟨config :: rest, .all hwhole (hgained.append hafter hwhole.distinct)⟩
      | upTo hsplit hstarted hfails hafter =>
        have hwhole := hgained.startable_append hstartable hstarted
        refine ⟨config :: started, .upTo (congrArg (config :: ·) hsplit) hwhole ?_ ?_⟩
        · exact hgained.fails_append hfails
        · exact hgained.append hafter hwhole.distinct
    · rw [hadd]
      exact ⟨[], .upTo rfl startable_nil hfails (gained_nil registry)⟩

/-- All utilities are started exactly if they can be. -/
theorem Starts.ok_iff {configs : List UtilityConfig} {answer : Except DbError (List String)}
    (h : registry.Starts configs started answer after) :
    (∃ ids, answer = .ok ids) ↔ registry.Startable configs := by
  cases h with
  | all hstartable _ => exact ⟨fun _ => hstartable, fun _ => ⟨_, rfl⟩⟩
  | upTo hsplit _ hfails _ =>
    refine ⟨nofun, fun hstartable => ?_⟩
    rw [hsplit] at hstartable
    exact absurd hstartable hfails.not_startable

theorem Starts.started_prefix {configs : List UtilityConfig}
    {answer : Except DbError (List String)} (h : registry.Starts configs started answer after) :
    started <+: configs ∧ registry.Startable started ∧ registry.Gained started after := by
  cases h with
  | all hstartable hgained => exact ⟨List.prefix_rfl, hstartable, hgained⟩
  | upTo hsplit hstartable _ hgained => exact ⟨⟨_, hsplit.symm⟩, hstartable, hgained⟩

/-- A list whose first utility is there fails at once. -/
theorem Gained.startAll_again {first : UtilityConfig}
    (hgained : registry.Gained (first :: started) after)
    (hstartable : registry.Startable (first :: started)) (rest : List UtilityConfig) :
    after.startAll (first :: rest) = (.error (.duplicateIdentifier first.provides), after) := by
  obtain ⟨utility, factory, hfactory, -⟩ := hstartable.built first List.mem_cons_self
  have hcontains : after.slots.contains first.provides = true :=
    (hgained.contains _).2 (.inr List.mem_cons_self)
  rw [← hgained.factories] at hfactory
  simp [startAll, addUtility, hfactory, hcontains]

end Registry

namespace Application

theorem startUtilities_eq (app : Application) :
    app.startUtilities =
      ((app.utilities.startAll app.wanted).1,
        { app with utilities := (app.utilities.startAll app.wanted).2 }) := rfl

/-- The utilities that an application wants are started in their order: all of them, which is so
exactly if each can be built and has an identifier of its own that is free, or those before the
first that fails. The registry gains these and nothing else, and nothing but the registry changes.
If any was started, starting them again fails at the first identifier and changes nothing. -/
theorem startUtilities_up_to_failure (app : Application) :
    let ran := app.startUtilities
    ((∃ ids, ran.1 = .ok ids) ↔ app.utilities.Startable app.wanted) ∧
      ran.2 = { app with utilities := ran.2.utilities } ∧
      ∃ started, app.utilities.Starts app.wanted started ran.1 ran.2.utilities ∧
        ∀ first ∈ started.head?,
          ran.2.startUtilities = (.error (.duplicateIdentifier first.provides), ran.2) := by
  intro ran
  obtain ⟨started, hstarts⟩ := app.utilities.starts_startAll app.wanted
  refine ⟨hstarts.ok_iff, rfl, started, hstarts, fun first hfirst => ?_⟩
  obtain ⟨⟨rest, hwanted⟩, hstartable, hgained⟩ := hstarts.started_prefix
  obtain ⟨behind, rfl⟩ := List.head?_eq_some_iff.1 hfirst
  have hagain := hgained.startAll_again hstartable (behind ++ rest)
  rw [← List.cons_append, hwanted] at hagain
  rw [ran.2.startUtilities_eq, show ran.2.utilities.startAll ran.2.wanted = _ from hagain]
  rfl

example :
    let beat (id : String) : UtilityConfig := { provides := id, factory := "heartbeat" }
    let app : Application := { empty none with
      utilities := Registry.empty.registerBuiltin, wanted := [beat "b", beat "a", beat "b"] }
    app.startUtilities.1 = .error (.duplicateIdentifier "b") ∧
      app.startUtilities.2.utilities.active = ["a", "b"] := by
  decide +kernel

end Application

end DocumentServer
