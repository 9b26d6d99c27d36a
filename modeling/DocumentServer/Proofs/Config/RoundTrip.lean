import DocumentServer.CommandLine.Run
import DocumentServer.Proofs.Config.Shaping
import DocumentServer.Proofs.Files.Directory

/-! Configurations that are written are read back as they were. A first configuration is one that
can be written, so a server starts with what was made for it. -/
namespace DocumentServer

open Toml

/-! ### Texts -/

namespace Config

theorem entries_eq {config : Config} {items : List Value}
    (h : config.server.streamBuffer ≤ Document.maxSigned)
    (hitems : utilityValues config.utilities = .ok items) :
    config.entries = .ok (configEntries config items) := by
  rw [entries, integerValue, if_pos h, hitems]
  rfl

/-- The text of a configuration describes it. -/
theorem Portable.exists_render {config : Config} (h : config.Portable) :
    ∃ text, config.render = .ok text ∧ ofText text = .ok config := by
  obtain ⟨items, hitems, htables, hfits, hread⟩ := exists_utilityValues h.settings
  have hentries := entries_eq h.streamBuffer_le hitems
  have hnames : ((configEntries config items).map (·.1)).Nodup := by simp [configEntries]
  have hparse := parse_write hnames (fits_configEntries h.streamBuffer_le hfits)
    (show 66 < 79 by decide)
  refine ⟨write (configEntries config items), ?_, ?_⟩
  · rw [render, hentries]
    rfl
  · rw [ofText, hparse]
    simp only [shape_configEntries h.streamBuffer_le htables hread]

theorem portable_scaffold (name : String) : (scaffold name).Portable := by
  have hsettings : PortableSettings (.ofMembers [("interval_secs", .integer 60)]) := by
    refine ⟨Document.canonical_ofMembers ?_, Document.writable_ofMembers ?_, by decide⟩
    · simpa using .integer 60
    · simpa using .integer (by decide) (by decide)
  refine ⟨show (16 : Int) ≤ Document.maxSigned by decide, ?_⟩
  simpa [scaffold] using hsettings

end Config

/-! ### Files -/

namespace Directory

/-- The file at a path describes a configuration. -/
def Holds (directory : Directory) (path : String) (config : Config) : Prop :=
  ∃ bytes, directory.read path = .ok bytes ∧ Config.ofBytes bytes = .ok config

theorem holds_write {directory after : Directory} {path text : String} {config : Config}
    (h : directory.write path (.ofString text) = .ok after)
    (htext : Config.ofText text = .ok config) : after.Holds path config := by
  refine ⟨.ofString text, read_write h, ?_⟩
  rw [Config.ofBytes, Bytes.text?_ofString]
  exact htext

end Directory

/-! ### Commands -/

namespace CommandLine

/-- A first configuration is written where there is nothing yet and a file can be made. -/
theorem init_run_iff (directory after : Directory) (output : String) {name text : String}
    (h : (Config.scaffold name).render = .ok text) :
    (init Directory.access output name).run directory = (.done, after) ↔
      directory.isPresent output = false ∧
        directory.write output (.ofString text) = .ok after := by
  rw [init, Directory.run_bind_eq (Directory.run_isPresent ..)]
  cases hpresent : directory.isPresent output with
  | true => exact ⟨nofun, nofun⟩
  | false =>
    simp only [Bool.false_eq_true, ↓reduceIte, h, true_and]
    cases hwrite : directory.write output (.ofString text) with
    | error fault =>
      rw [Directory.run_bind_eq (Directory.run_write_error hwrite)]
      exact ⟨nofun, nofun⟩
    | ok directory' =>
      rw [Directory.run_bind_eq (Directory.run_write_ok hwrite)]
      exact ⟨fun heq => by cases heq; rfl, fun heq => by cases heq; rfl⟩

theorem serve_run {directory : Directory} {path name : String}
    (h : directory.Holds path (Config.scaffold name)) :
    (serve Directory.access path).run directory = (.ready "0.0.0.0" 8080, directory) := by
  obtain ⟨bytes, hread, hconfig⟩ := h
  let app := { Application.empty (some path) with wanted := (Config.scaffold name).utilities }
  have hopen : (Application.ofConfig Directory.access (Config.scaffold name) (some path)).run
      directory = (.ok (app.addMemory name name), directory) := rfl
  have hclose : ((app.addMemory name name).close Directory.access).run directory =
    ((), directory) := rfl
  have hprepare : prepare (app.addMemory name name) {} = .ready "0.0.0.0" 8080 := rfl
  rw [serve, Directory.run_bind_eq (Directory.run_read ..), hread]
  simp only [hconfig]
  rw [Directory.run_bind_eq hopen]
  dsimp only
  rw [Directory.run_bind_eq hclose]
  exact congrArg (·, directory) hprepare

end CommandLine

namespace Config

/-- Whatever names and texts a configuration holds, it is read from a file as it was written there,
and a server starts with any first configuration that was made for it. -/
theorem reads_back_as_written :
    (∀ config : Config, config.Portable → ∃ text, config.render = .ok text ∧
      ∀ (directory after : Directory) (path : String),
        directory.write path (.ofString text) = .ok after → after.Holds path config) ∧
    ∀ name : String, (scaffold name).Portable ∧ ∃ text, (scaffold name).render = .ok text ∧
      ∀ (directory after : Directory) (output : String),
        ((CommandLine.init Directory.access output name).run directory = (.done, after) ↔
          directory.isPresent output = false ∧
            directory.write output (.ofString text) = .ok after) ∧
        ((CommandLine.init Directory.access output name).run directory = (.done, after) →
          after.Holds output (scaffold name) ∧
            (CommandLine.serve Directory.access output).run after =
              (.ready "0.0.0.0" 8080, after)) := by
  refine ⟨fun config h => ?_, fun name => ?_⟩
  · obtain ⟨text, hrender, hread⟩ := h.exists_render
    exact ⟨text, hrender, fun _ _ _ hwrite => Directory.holds_write hwrite hread⟩
  · have hportable := portable_scaffold name
    obtain ⟨text, hrender, hread⟩ := hportable.exists_render
    refine ⟨hportable, text, hrender, fun directory after output => ?_⟩
    have hinit := CommandLine.init_run_iff directory after output hrender
    refine ⟨hinit, fun hdone => ?_⟩
    have hholds := Directory.holds_write (hinit.1 hdone).2 hread
    exact ⟨hholds, CommandLine.serve_run hholds⟩

/-- Names without characters, with points, quotes and line feeds, and settings in tables and out of
them. -/
theorem reads_back_as_written_with_any_names :
    let settings : Document := .ofMembers [
      ("", .array [.ofMembers [("x y", .integer (-9223372036854775808))], .emptyObject]),
      ("k.l", .string "say \"it's\"\n\x7f\\"),
      ("é", .array [.bool true, .array []])]
    let config : Config := {
      server := { host := "", port := 0, streamBuffer := 9223372036854775807 }
      databases := .ofList [("", {}), ("a.b", { path := some "c:\\d" }),
        ("\"'\n", { path := some "" }), ("日本", {})]
      utilities := [{ provides := "", factory := "'''\"\"\"", settings },
        { provides := "b", factory := "" }] }
    let empty : Directory := .ofList []
    config.Portable ∧
      (∃ text after, config.render = .ok text ∧ empty.write "k" (.ofString text) = .ok after ∧
        after.Holds "k" config) ∧
      ∃ after, (CommandLine.init Directory.access "k" "\"a.b\"\n").run empty = (.done, after) ∧
        after.Holds "k" (scaffold "\"a.b\"\n") := by
  intro settings config empty
  have hcanonical : settings.Canonical := by
    refine Document.canonical_ofMembers ?_
    simp only [List.forall_mem_cons]
    refine ⟨.array ?_, .string _, .array ?_, nofun⟩
    · simpa using ⟨Document.canonical_ofMembers (by simpa using .integer _), .object .nil nofun⟩
    · simpa using ⟨.bool true, .array nofun⟩
  have hwritable : settings.Writable := by
    refine Document.writable_ofMembers ?_
    simp only [List.forall_mem_cons]
    refine ⟨.array ?_, .string _, .array ?_, nofun⟩
    · have hleast : (Document.integer (-9223372036854775808)).Writable :=
        .integer (by decide) (by decide)
      simpa using ⟨Document.writable_ofMembers (by simpa using hleast), .object nofun⟩
    · simpa using ⟨.bool true, .array nofun⟩
  have hportable : config.Portable := by
    refine ⟨show (9223372036854775807 : Int) ≤ Document.maxSigned by decide, ?_⟩
    have hdepth : settings.depth ≤ 64 := by
      decide +kernel
    have hnone : PortableSettings Document.emptyObject :=
      ⟨.object .nil nofun, .object nofun, by decide⟩
    simpa [config] using ⟨⟨hcanonical, hwritable, hdepth⟩, hnone⟩
  have habsent : empty.isPresent "k" = false := by
    rw [Directory.isPresent, Directory.place_k]
    rfl
  have hwrite (bytes : Bytes) : ∃ after, empty.write "k" bytes = .ok after := by
    rw [Directory.write, Directory.nameToWrite, Directory.place_k]
    exact ⟨_, rfl⟩
  obtain ⟨text, hrender, hread⟩ := reads_back_as_written.1 config hportable
  obtain ⟨-, text', -, hfirst⟩ := reads_back_as_written.2 "\"a.b\"\n"
  obtain ⟨after, hafter⟩ := hwrite (.ofString text)
  obtain ⟨after', hafter'⟩ := hwrite (.ofString text')
  have hdone := (hfirst empty after' "k").1.2 ⟨habsent, hafter'⟩
  exact ⟨hportable, ⟨text, after, hrender, hafter, hread empty after "k" hafter⟩, after', hdone,
    ((hfirst empty after' "k").2 hdone).1⟩

end Config

end DocumentServer
