import DocumentServer.Proofs.Utility.Roster

/-! The settings of heartbeats. A table may name the interval and nothing else, and the interval is
a positive integer of 64 bits. The same holds of a sequence with the interval in its only place,
which is more than tables. All other settings are refused, and a refused heartbeat leaves the
registry as it was. -/
namespace DocumentServer

/-- A strict reader refuses more items than there are fields. -/
theorem Shape.readFields_too_long {α : Type} (read : String → Tree → α → Shaped α)
    {fields : List String} {items : List Tree} (h : fields.length < items.length)
    (seen found : α) : readFields true read fields items seen ≠ .ok found := by
  unfold readFields
  cases readEntries read (fields.zip items) seen with
  | error => nofun
  | ok => simp [h, bind, Except.bind, throw, throwThe, MonadExceptOf.throw]

namespace Heartbeat

/-! ### What settings name -/

/-- What stands in the place of the interval: a positive integer of 64 bits, or nothing, which
stands for 60 seconds. -/
def Names (place : Option Document) (seconds : Nat) : Prop :=
  match place with
  | none => seconds = 60
  | some value => value = .integer seconds ∧ 1 ≤ seconds ∧ seconds ≤ 18446744073709551615

/-- A table that names the interval, if any member. -/
def TableNames (document : Document) (seconds : Nat) : Prop :=
  ∃ members, document = .object members ∧ (∀ entry ∈ members, entry.1 = "interval_secs") ∧
    Names (members.lookup "interval_secs") seconds

/-- A sequence of the interval, if of any item. -/
def SequenceNames (document : Document) (seconds : Nat) : Prop :=
  ∃ items, document = .array items ∧ items.length ≤ 1 ∧ Names items.head? seconds

/-! ### One place -/

/-- What is read from the place of the interval, which may be zero. -/
def Reads (place : Option Document) (seconds : Nat) : Prop :=
  match place with
  | none => seconds = 60
  | some value => value = .integer seconds ∧ seconds ≤ 18446744073709551615

theorem names_iff (place : Option Document) (seconds : Nat) :
    Names place seconds ↔ Reads place seconds ∧ 1 ≤ seconds := by
  cases place with
  | none =>
    simp only [Names, Reads]
    omega
  | some value =>
    simp only [Names, Reads]
    rw [and_comm (a := 1 ≤ seconds), and_assoc]

variable {document value : Document} {key : String} {seconds seen : Nat}

theorem ofDocument_eq_integer_iff {number : Int} :
    Tree.ofDocument document = .integer number ↔ document = .integer number := by
  cases document <;> simp [Tree.ofDocument]

theorem natural_eq_ok_iff {limit : Nat} {expected : String} {tree : Tree} :
    Shape.natural limit expected tree = .ok seconds ↔
      tree = .integer seconds ∧ seconds ≤ limit := by
  cases tree with
  | integer number =>
    rw [Shape.natural, Tree.integer.injEq]
    split
    next h =>
      rw [Except.ok.injEq]
      omega
    next h =>
      refine iff_of_false nofun ?_
      omega
  | _ => simp [Shape.natural]

theorem settingsField_eq_ok_iff :
    settingsField key (.ofDocument value) seen = .ok seconds ↔
      key = "interval_secs" ∧ Reads (some value) seconds := by
  unfold settingsField
  split
  next =>
    rw [show Document.maxInteger = (18446744073709551615 : Nat) from rfl, natural_eq_ok_iff,
      ofDocument_eq_integer_iff]
    simp [Reads]
  next hkey => exact iff_of_false nofun fun h => hkey h.1

/-! ### All settings -/

theorem key_of_settingsField {tree : Tree} (h : settingsField key tree seen = .ok seconds) :
    key = "interval_secs" := by
  unfold settingsField at h
  split at h
  · rfl
  · cases h

theorem keys_of_readEntries {entries : List (String × Tree)}
    (h : Shape.readEntries settingsField entries seen = .ok seconds) :
    ∀ entry ∈ entries, entry.1 = "interval_secs" := by
  induction entries generalizing seen with
  | nil => nofun
  | cons entry rest ih =>
    obtain ⟨key, tree⟩ := entry
    rw [Shape.readEntries] at h
    cases hfield : settingsField key tree seen with
    | error fault =>
      rw [hfield] at h
      cases h
    | ok found =>
      rw [hfield] at h
      exact List.forall_mem_cons.2 ⟨key_of_settingsField hfield, ih h⟩

theorem readEntries_singleton (key : String) (tree : Tree) (seen : Nat) :
    Shape.readEntries settingsField [(key, tree)] seen = settingsField key tree seen := by
  show (settingsField key tree seen).bind .ok = _
  cases settingsField key tree seen <;> rfl

/-- A table without repeated names has at most one place for the interval. -/
theorem settings_object_iff {members : List (String × Document)} (h : Ascending members) :
    settings (.ofDocument (.object members)) = .ok seconds ↔
      (∀ entry ∈ members, entry.1 = "interval_secs") ∧
        Reads (members.lookup "interval_secs") seconds := by
  match members with
  | [] => simp [Tree.ofDocument, Tree.ofMembers, settings, Shape.readEntries, Reads,
      defaultInterval, eq_comm]
  | [(key, value)] =>
    rw [show settings (.ofDocument (.object [(key, value)])) = _ from
      readEntries_singleton key _ defaultInterval, settingsField_eq_ok_iff,
      List.forall_mem_singleton]
    refine and_congr_right fun hkey => ?_
    rw [hkey, KeyMap.lookup_cons_eq, if_pos rfl]
  | (key, value) :: (key', value') :: rest =>
    have hless : key < key' := (List.pairwise_cons.1 h).1 _ List.mem_cons_self
    have happart (hkey : key = "interval_secs") (hkey' : key' = "interval_secs") : False := by
      rw [hkey, hkey'] at hless
      exact String.lt_irrefl _ hless
    refine iff_of_false (fun hsettings => ?_) fun hnames => ?_
    · have hread : Shape.readEntries settingsField
          ((key, .ofDocument value) :: (key', .ofDocument value') :: Tree.ofMembers rest)
          defaultInterval = .ok seconds := hsettings
      have hkeys := List.forall_mem_cons.1 (keys_of_readEntries hread)
      exact happart hkeys.1 (hkeys.2 _ List.mem_cons_self)
    · have hkeys := List.forall_mem_cons.1 hnames.1
      exact happart hkeys.1 (hkeys.2 _ List.mem_cons_self)

theorem settings_array_iff {items : List Document} :
    settings (.ofDocument (.array items)) = .ok seconds ↔
      items.length ≤ 1 ∧ Reads items.head? seconds := by
  match items with
  | [] => simp [Tree.ofDocument, Tree.ofItems, settings, Shape.readFields, Shape.readEntries,
      Reads, defaultInterval, eq_comm, bind, Except.bind, pure, Except.pure]
  | [value] =>
    have hread : settings (.ofDocument (.array [value])) =
        settingsField "interval_secs" (.ofDocument value) defaultInterval := by
      show (Shape.readEntries settingsField [_] defaultInterval).bind .ok = _
      rw [readEntries_singleton]
      cases settingsField "interval_secs" (.ofDocument value) defaultInterval <;> rfl
    rw [hread, settingsField_eq_ok_iff]
    simp
  | value :: value' :: rest =>
    refine iff_of_false (fun hsettings => ?_) fun hshort => by simp at hshort
    have hlong : ["interval_secs"].length <
        (Tree.ofDocument value :: .ofDocument value' :: Tree.ofItems rest).length := by simp
    exact Shape.readFields_too_long settingsField hlong defaultInterval seconds hsettings

/-- Settings of any other shape name nothing. -/
theorem settings_eq_ok_iff (h : document.Canonical) :
    settings (.ofDocument document) = .ok seconds ∧ 1 ≤ seconds ↔
      TableNames document seconds ∨ SequenceNames document seconds := by
  have hother (hobject : ∀ members, document ≠ .object members)
      (harray : ∀ items, document ≠ .array items) :
      ¬ (TableNames document seconds ∨ SequenceNames document seconds) := by
    rintro (⟨members, hmembers, -⟩ | ⟨items, hitems, -⟩)
    · exact hobject members hmembers
    · exact harray items hitems
  cases h with
  | @object members hascending _ =>
    rw [settings_object_iff hascending, and_assoc, ← names_iff]
    simp [TableNames, SequenceNames]
  | @array items _ =>
    rw [settings_array_iff, and_assoc, ← names_iff]
    simp [TableNames, SequenceNames]
  | _ => exact iff_of_false (fun h => nomatch h.1) (hother nofun nofun)

/-- Zero seconds are refused after the settings were read. -/
theorem intervalOf_eq_ok_iff :
    intervalOf document = .ok seconds ↔
      settings (.ofDocument document) = .ok seconds ∧ 1 ≤ seconds := by
  unfold intervalOf
  cases settings (.ofDocument document) with
  | error fault => exact iff_of_false nofun fun h => nomatch h.1
  | ok found =>
    cases found with
    | zero =>
      refine iff_of_false nofun fun ⟨hzero, hpositive⟩ => ?_
      cases hzero
      exact absurd hpositive (by decide)
    | succ found =>
      simp only [Except.ok.injEq]
      omega

theorem intervalOf_cases (document : Document) :
    (∃ seconds, intervalOf document = .ok seconds) ∨
      ∃ text, intervalOf document = .error (.settings text) := by
  unfold intervalOf
  split
  · exact .inr ⟨_, rfl⟩
  · exact .inr ⟨_, rfl⟩
  · exact .inl ⟨_, rfl⟩

/-- A heartbeat is built from settings that are a table or a sequence with a positive integer of 64
bits, or nothing, in the place of the interval and nothing besides; this is its interval, which is
60 seconds without one. All other settings are refused, and the registry stays as it was. -/
theorem heartbeat_settings {document : Document} (h : document.Canonical) :
    let Accepts (seconds : Nat) := TableNames document seconds ∨ SequenceNames document seconds
    (∀ utility, Factory.heartbeat document = .ok utility ↔
      ∃ seconds, utility = .heartbeat seconds ∧ Accepts seconds) ∧
      ((∀ seconds, ¬ Accepts seconds) →
        ∃ text, Factory.heartbeat document = .error (.settings text) ∧
          ∀ (registry : Registry) (config : UtilityConfig),
            registry.factories.get? config.factory = some .heartbeat →
            config.settings = document →
            registry.call (.addUtility config) =
              (.error (if registry.slots.contains config.provides
                then .duplicateIdentifier config.provides else .settings text), registry)) := by
  intro Accepts
  have hinterval (seconds : Nat) : intervalOf document = .ok seconds ↔ Accepts seconds :=
    intervalOf_eq_ok_iff.trans (settings_eq_ok_iff h)
  refine ⟨fun utility => ?_, fun hrefused => ?_⟩
  · simp only [← hinterval, Factory.heartbeat]
    cases intervalOf document <;> simp [Except.map, eq_comm]
  · obtain ⟨seconds, hok⟩ | ⟨text, htext⟩ := intervalOf_cases document
    · exact absurd ((hinterval seconds).1 hok) (hrefused seconds)
    · have herror : Factory.heartbeat document = .error (.settings text) := by
        rw [Factory.heartbeat, htext]
        rfl
      refine ⟨text, herror, fun registry config hfactory hsettings => ?_⟩
      cases hcontains : registry.slots.contains config.provides <;>
        simp [Registry.call, Registry.addUtility, Registry.answered, hfactory, hcontains,
          hsettings, herror, Except.map]

/-- A member besides the interval. -/
theorem heartbeat_settings_other_member :
    let document : Document := .object [("beats", .integer 3), ("interval_secs", .integer 5)]
    let registry := Registry.empty.registerBuiltin
    document.Canonical ∧ ∃ text, Factory.heartbeat document = .error (.settings text) ∧
      registry.call (.addUtility ⟨"clock", "heartbeat", document⟩) =
        (.error (.settings text), registry) := by
  intro document registry
  have hcanonical : document.Canonical := by
    refine .object (List.pairwise_pair.2 (by decide : "beats" < "interval_secs")) ?_
    simp [Document.Canonical.integer]
  have hrefused (seconds : Nat) :
      ¬ (TableNames document seconds ∨ SequenceNames document seconds) := by
    rintro (⟨members, hmembers, hnames, -⟩ | ⟨items, hitems, -⟩)
    · obtain rfl := Document.object.inj hmembers
      exact absurd (hnames _ List.mem_cons_self) (by decide)
    · exact Document.noConfusion hitems
  obtain ⟨text, herror, hcall⟩ := (heartbeat_settings hcanonical).2 hrefused
  exact ⟨hcanonical, text, herror, hcall registry ⟨"clock", "heartbeat", document⟩ rfl rfl⟩

/-- Not only tables are accepted: a sequence without items is, too. -/
theorem not_only_tables_accepted :
    ¬ ∀ (document : Document) (seconds : Nat), document.Canonical →
      (Factory.heartbeat document = .ok (.heartbeat seconds) ↔ TableNames document seconds) := by
  intro h
  obtain ⟨members, hmembers, -⟩ := (h (.array []) 60 (.array nofun)).1 rfl
  cases hmembers

end Heartbeat

end DocumentServer
