import DocumentServer.Proofs.Config.Settings

/-! Shaping what is read back of a configuration. Each part of it is written as entries that fit and
is shaped out of what is read back of them, whichever of them come first. -/
namespace DocumentServer.Config

open Toml

/-! ### The server -/

def serverEntries (server : ServerConfig) : List (String × Value) :=
  [("host", .string server.host), ("port", .integer server.port.toNat),
    ("stream_buffer", .integer server.streamBuffer)]

theorem integer_fits {n : Nat} (h : n ≤ Document.maxSigned) (room : Nat) :
    (Value.integer n).Fits room :=
  .integer (Int.le_trans (by decide) (Int.natCast_nonneg n)) h

theorem port_le (port : UInt16) : (port.toNat : Int) ≤ 65535 := by
  have hport := port.toNat_lt
  omega

theorem fits_server {server : ServerConfig} (h : server.streamBuffer ≤ Document.maxSigned) :
    (Value.table (serverEntries server)).Fits 1 := by
  have hport : (server.port.toNat : Int) ≤ Document.maxSigned :=
    Int.le_trans (port_le server.port) (by decide)
  refine .table (by simp [serverEntries]) ?_
  simpa [serverEntries] using ⟨.string _, integer_fits hport 0, integer_fits h 0⟩

theorem natural_natCast {limit : Int} {n : Nat} (h : n ≤ limit) (expected : String) :
    Shape.natural limit expected (.integer n) = .ok n := by
  rw [Shape.natural, if_pos ⟨Int.natCast_nonneg n, h⟩, Int.toNat_natCast]

theorem shape_server {server : ServerConfig} (h : server.streamBuffer ≤ Document.maxSigned) :
    Shape.server false (Tree.ofValue (.table (serverEntries server))) = .ok server := by
  have hport := natural_natCast (port_le server.port) "u16"
  have hbuffer := natural_natCast (Int.le_trans h (by decide : _ ≤ Document.maxInteger)) "usize"
  simp [serverEntries, Tree.ofValue, Tree.ofEntries, Shape.server, Shape.readEntries,
    Shape.serverField, Shape.text, hport, hbuffer, bind, Except.bind, pure, Except.pure]

/-! ### Databases -/

theorem fits_databaseEntry (entry : String × DatabaseConfig) : (databaseEntry entry).2.Fits 1 := by
  obtain ⟨name, path⟩ := entry
  rcases path with ⟨_ | path⟩
  · exact .table (by simp) nofun
  · exact .table (by simp) (by simpa using .string path)

theorem fits_databases (databases : KeyMap DatabaseConfig) :
    (Value.table (databases.entries.map databaseEntry)).Fits 2 := by
  refine .table ?_ ?_
  · simpa [databaseEntry, Function.comp_def] using KeyMap.nodup_of_ascending databases.ascending
  · intro entry hentry
    obtain ⟨database, -, rfl⟩ := List.mem_map.1 hentry
    exact fits_databaseEntry database

theorem shape_databaseEntry (entry : String × DatabaseConfig) :
    Shape.database false (Tree.ofValue (databaseEntry entry).2) = .ok entry.2 := by
  obtain ⟨name, path⟩ := entry
  rcases path with ⟨_ | path⟩ <;> rfl

theorem readEntries_databases (entries : List (String × DatabaseConfig))
    (databases : KeyMap DatabaseConfig) :
    Shape.readEntries (Shape.namedDatabase false) (Tree.ofEntries (entries.map databaseEntry))
        databases =
      .ok (entries.foldl (fun map entry => map.insert entry.1 entry.2) databases) := by
  induction entries generalizing databases with
  | nil => rfl
  | cons entry entries ih =>
    have hfirst : Shape.namedDatabase false entry.1 (Tree.ofValue (databaseEntry entry).2)
        databases = .ok (databases.insert entry.1 entry.2) := by
      rw [Shape.namedDatabase, shape_databaseEntry]
      rfl
    rw [List.map_cons, List.foldl_cons, ← ih]
    show (Shape.namedDatabase false entry.1 (Tree.ofValue (databaseEntry entry).2) databases >>=
      Shape.readEntries _ _) = _
    rw [hfirst]
    rfl

theorem shape_databases (databases : KeyMap DatabaseConfig) :
    Shape.databases false (Tree.ofValue (.table (databases.entries.map databaseEntry))) =
      .ok databases := by
  have hsame : KeyMap.ofList databases.entries = databases :=
    KeyMap.ext (KeyMap.entries_ofList databases.ascending)
  rw [Tree.ofValue, Shape.databases, readEntries_databases]
  exact congrArg Except.ok hsame

/-! ### Utilities -/

/-- Settings that a configuration text can hold. -/
structure PortableSettings (settings : Document) : Prop where
  canonical : settings.Canonical
  writable : settings.Writable
  depth_le : settings.depth ≤ 64

/-- The entries of a utility with its settings as a value. -/
def utilityEntries (utility : UtilityConfig) (settings : Value) : List (String × Value) :=
  [("provides", .string utility.provides), ("factory", .string utility.factory),
    ("settings", settings)]

theorem fits_utilityEntries (utility : UtilityConfig) {room : Nat} {settings : Value}
    (h : settings.Fits room) : (Value.table (utilityEntries utility settings)).Fits (room + 1) := by
  refine .table (by simp [utilityEntries]) ?_
  simpa [utilityEntries] using ⟨.string _, .string _, h⟩

theorem shape_utilityEntries {utility : UtilityConfig} {settings : Value}
    (h : settings.document = utility.settings) :
    Shape.utility false (Tree.ofValue (.table (utilityEntries utility settings))) =
      .ok utility := by
  rw [Value.document] at h
  simp [utilityEntries, Tree.ofValue, Tree.ofEntries, Shape.utility, Shape.readEntries,
    Shape.utilityField, Shape.text, Shape.utilityOf, h, bind, Except.bind, pure, Except.pure]

/-- The settings come last, with headers or without. -/
theorem entryValues_utilityEntries (utility : UtilityConfig) {room : Nat} {settings : Value}
    (h : settings.Fits room) :
    ∃ settings', settings'.document = settings.document ∧
      entryValues (tableNodes (utilityEntries utility settings)) =
        utilityEntries utility settings' := by
  have hprovides : (Value.string utility.provides).hasHeader = false := rfl
  have hfactory : (Value.string utility.factory).hasHeader = false := rfl
  rw [entryValues_tableNodes]
  cases hheader : settings.hasHeader with
  | false =>
    refine ⟨settings, rfl, ?_⟩
    simp [utilityEntries, plainEntries, headedNodes, hprovides, hfactory, hheader, entryValues]
  | true =>
    refine ⟨_, document_headedNode settings h hheader, ?_⟩
    simp [utilityEntries, plainEntries, headedNodes, hprovides, hfactory, hheader, entryValues]

theorem exists_utilityValues {utilities : List UtilityConfig}
    (h : ∀ utility ∈ utilities, PortableSettings utility.settings) :
    ∃ items, utilityValues utilities = .ok items ∧ items.all Value.isTable = true ∧
      (Value.array items).Fits 66 ∧
      Shape.readAll (Shape.utility false) (Tree.ofValues (tableValues (itemNodes items))) =
        .ok utilities := by
  induction utilities with
  | nil => exact ⟨[], rfl, rfl, .array nofun, rfl⟩
  | cons utility utilities ih =>
    obtain ⟨hutility, hothers⟩ := List.forall_mem_cons.1 h
    obtain ⟨settings, hsettings⟩ := exists_stands hutility.canonical hutility.writable
    obtain ⟨items, hitems, htables, hfits, hread⟩ := ih hothers
    have hroom : settings.Fits 64 := hsettings.fits.mono hutility.depth_le
    obtain ⟨settings', hdocument, hentries⟩ := entryValues_utilityEntries utility hroom
    have hshape : Shape.utility false (Tree.ofValue (.table (utilityEntries utility settings'))) =
        .ok utility := shape_utilityEntries (hdocument.trans hsettings.document)
    refine ⟨.table (utilityEntries utility settings) :: items, ?_, ?_, ?_, ?_⟩
    · have hfirst : utilityValue utility = .ok (.table (utilityEntries utility settings)) := by
        rw [utilityValue, hsettings.valueOf]
        rfl
      rw [utilityValues, hfirst, hitems]
      rfl
    · rw [List.all_cons, htables]
      rfl
    · cases hfits with
      | array hitems =>
        exact .array (List.forall_mem_cons.2 ⟨fits_utilityEntries utility hroom, hitems⟩)
    · have hnode : itemNode (.table (utilityEntries utility settings)) =
          tableNodes (utilityEntries utility settings) := rfl
      rw [itemNodes, tableValues, Tree.ofValues, hnode, hentries, Shape.readAll, hshape, hread]
      rfl

/-! ### The whole -/

/-- A configuration that a text can hold. -/
structure Portable (config : Config) : Prop where
  streamBuffer_le : config.server.streamBuffer ≤ Document.maxSigned
  settings : ∀ utility ∈ config.utilities, PortableSettings utility.settings

/-- A table without tables in it is read back with its entries in the same order. -/
theorem toValue_plainTable {entries : List (String × Value)}
    (h : ∀ entry ∈ entries, entry.2.hasHeader = false) :
    (headedNode (.table entries)).toValue = .table entries := by
  have hplain : plainEntries entries = entries :=
    List.filter_eq_self.2 fun entry hentry => by rw [h entry hentry, Bool.not_false]
  have hnone : entries.filter (·.2.hasHeader) = [] :=
    List.filter_eq_nil_iff.2 fun entry hentry => by rw [h entry hentry]; nofun
  have hheaded : headedNodes entries = [] := by
    have hkeys := keys_headedNodes entries
    rw [hnone] at hkeys
    exact List.map_eq_nil_iff.1 hkeys
  have hentries := entryValues_tableNodes entries
  rw [hplain, hheaded, entryValues, List.append_nil] at hentries
  exact congrArg Value.table hentries

theorem toValue_server (server : ServerConfig) :
    (headedNode (.table (serverEntries server))).toValue = .table (serverEntries server) := by
  refine toValue_plainTable ?_
  simp [serverEntries, Value.hasHeader]

theorem toValue_databaseEntry (entry : String × DatabaseConfig) :
    (headedNode (databaseEntry entry).2).toValue = (databaseEntry entry).2 := by
  refine toValue_plainTable ?_
  simp [Value.hasHeader]

theorem entryValues_databases (entries : List (String × DatabaseConfig)) :
    entryValues (headedNodes (entries.map databaseEntry)) = entries.map databaseEntry := by
  induction entries with
  | nil => rfl
  | cons entry entries ih =>
    have htable : (databaseEntry entry).2.hasHeader = true := rfl
    show entryValues (headedNodes ((entry.1, (databaseEntry entry).2) :: _)) = _
    rw [headedNodes, if_pos htable, entryValues, toValue_databaseEntry, ih]
    rfl

theorem toValue_databases (entries : List (String × DatabaseConfig)) :
    (headedNode (.table (entries.map databaseEntry))).toValue =
      .table (entries.map databaseEntry) := by
  have hplain : plainEntries (entries.map databaseEntry) = [] := by
    refine List.filter_eq_nil_iff.2 fun entry hentry => ?_
    obtain ⟨database, -, rfl⟩ := List.mem_map.1 hentry
    exact Bool.false_ne_true
  have hentries := entryValues_tableNodes (entries.map databaseEntry)
  rw [hplain, entryValues_databases, List.nil_append] at hentries
  exact congrArg Value.table hentries

def configEntries (config : Config) (items : List Value) : List (String × Value) :=
  [("server", .table (serverEntries config.server)),
    ("databases", .table (config.databases.entries.map databaseEntry)),
    ("utilities", .array items)]

theorem fits_configEntries {config : Config} {items : List Value}
    (h : config.server.streamBuffer ≤ Document.maxSigned) (hitems : (Value.array items).Fits 66) :
    ∀ entry ∈ configEntries config items, entry.2.Fits 66 := by
  have hserver := (fits_server h).mono (by decide : 1 ≤ 66)
  have hdatabases := (fits_databases config.databases).mono (by decide : 2 ≤ 66)
  simpa [configEntries] using ⟨hserver, hdatabases, hitems⟩

/-- An empty list of utilities has no header and comes first; a longer one comes last. -/
theorem shape_configEntries {config : Config} {items : List Value}
    (h : config.server.streamBuffer ≤ Document.maxSigned)
    (htables : items.all Value.isTable = true)
    (hread : Shape.readAll (Shape.utility false) (Tree.ofValues (tableValues (itemNodes items))) =
      .ok config.utilities) :
    Shape.config false
        (.table (Tree.ofEntries (entryValues (tableNodes (configEntries config items))))) =
      .ok config := by
  have hserver := shape_server h
  have hdatabases := shape_databases config.databases
  have hutilities : Shape.utilities false (Tree.ofValue (headedNode (.array items)).toValue) =
      .ok config.utilities := hread
  have hheader (entries : List (String × Value)) : (Value.table entries).hasHeader = true := rfl
  rw [entryValues_tableNodes]
  cases items with
  | nil =>
    have hplain : (Value.array []).hasHeader = false := rfl
    have hempty : Shape.utilities false (Tree.ofValue (.array [])) = .ok config.utilities :=
      hutilities
    simp [configEntries, plainEntries, headedNodes, hheader, hplain, entryValues, toValue_server,
      toValue_databases, Tree.ofEntries, Shape.config, Shape.readEntries,
      Shape.configField, hserver, hdatabases, hempty, bind, Except.bind, pure, Except.pure]
  | cons item items =>
    have hheaded : (Value.array (item :: items)).hasHeader = true := htables
    simp [configEntries, plainEntries, headedNodes, hheader, hheaded, entryValues, toValue_server,
      toValue_databases, Tree.ofEntries, Shape.config, Shape.readEntries, Shape.configField,
      hserver, hdatabases, hutilities, bind, Except.bind, pure, Except.pure]

end DocumentServer.Config
