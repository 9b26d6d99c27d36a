import DocumentServer.Proofs.Bytes
import DocumentServer.Proofs.Database.Contents
import DocumentServer.Proofs.Files.Directory
import DocumentServer.Proofs.Store.Containment
import DocumentServer.Proofs.Store.Image

/-! Stores over whole runs of changes, in memory and in files that are closed and opened again
meanwhile. Which document stands under a name is decided by the last step about that name. All that
a store shows of its names, their number and their documents can be told from this, whatever the
steps were, and a store that comes back from its file is the store that went there. -/
namespace DocumentServer

/-- A step in the life of a store. -/
inductive StoreStep where
  | put (key : String) (document : Document)
  | delete (key : String)
  /-- The store is closed and opened again. -/
  | reopen

namespace StoreStep

/-- What stands under a name after a step, by what stood there before it. -/
def leaves (key : String) (found : Option Document) : StoreStep → Option Document
  | put name document => if key = name then some document else found
  | delete name => if key = name then none else found
  | reopen => found

/-- The document that was put last under a name and not dropped since. -/
def standing (steps : List StoreStep) (key : String) : Option Document :=
  steps.foldl (leaves key) none

end StoreStep

/-- A database that is open, with the directory of its file. -/
structure OpenDatabase where
  database : Database
  vault : Vault
  directory : Directory

namespace OpenDatabase

def openAt (id : String) (file : Option String) (directory : Directory) :
    Except DbError OpenDatabase :=
  match file with
  | none =>
    let (database, vault) := Vault.empty.create id ∅ none
    .ok ⟨database, vault, directory⟩
  | some path =>
    match (Vault.empty.openFile Directory.access id path).run directory with
    | (.ok (database, vault), directory) => .ok ⟨database, vault, directory⟩
    | (.error error, _) => .error error

def store (opened : OpenDatabase) : ObjectStore := opened.vault.content opened.database.number

def call (opened : OpenDatabase) (call : StoreCall) :
    Except DbError StoreAnswer × OpenDatabase :=
  let (answer, vault) := opened.vault.call opened.database call
  (answer, { opened with vault })

/-- Closes the database and opens it again. -/
def reopen (id : String) (file : Option String) (opened : OpenDatabase) :
    Except DbError OpenDatabase :=
  openAt id file ((opened.vault.close Directory.access).run opened.directory).2

def step (id : String) (file : Option String) (opened : OpenDatabase) :
    StoreStep → Except DbError OpenDatabase
  | .put key document => .ok (opened.call (.set key document)).2
  | .delete key => .ok (opened.call (.delete key)).2
  | .reopen => opened.reopen id file

def run (id : String) (file : Option String) :
    OpenDatabase → List StoreStep → Except DbError OpenDatabase
  | opened, [] => .ok opened
  | opened, step :: rest =>
    match opened.step id file step with
    | .ok next => run id file next rest
    | .error error => .error error

end OpenDatabase

/-! ### What a store shows -/

namespace ObjectStore

/-- The store holds the texts of these documents under their names and nothing else. -/
def Stands (store : ObjectStore) (standing : String → Option Document) : Prop :=
  ∀ key, store.objects.get? key = (standing key).map Document.text

/-- What a store shows if these documents stand in it. -/
structure Observed (store : ObjectStore) (standing : String → Option Document) : Prop where
  ascending : store.keys.Pairwise fun a b => Bytes.ofString a < Bytes.ofString b
  keys : ∀ key, key ∈ store.keys ↔ (standing key).isSome = true
  size : store.size = store.keys.length
  empty : store.size = 0 ↔ ∀ key, standing key = none
  contains : ∀ key, store.contains key = true ↔ key ∈ store.keys
  absent : ∀ key, store.get key = .ok none ↔ key ∉ store.keys
  /-- A document that reads back is the one that was put. -/
  get : ∀ key document, standing key = some document → document.Readable →
    store.get key = .ok (some document)
  /-- Dropping a name tells whether it was there. -/
  delete : ∀ key, store.delete key =
    if key ∈ store.keys then .ok (store.erase key) else .error (.notFound key)
  keys_erase : ∀ key, (store.erase key).keys = store.keys.filter (· ≠ key)
  get_erase : ∀ key other, other ≠ key → (store.erase key).get other = store.get other
  keys_put : ∀ key document other,
    other ∈ (store.put key document).keys ↔ other = key ∨ other ∈ store.keys
  get_put : ∀ key document other, other ≠ key →
    (store.put key document).get other = store.get other

variable {store : ObjectStore} {standing : String → Option Document}

theorem stands_empty : (∅ : ObjectStore).Stands fun _ => none := fun _ => rfl

theorem Stands.put (h : store.Stands standing) (key : String) (document : Document) :
    (store.put key document).Stands fun name =>
      (StoreStep.put key document).leaves name (standing name) := by
  intro name
  rw [ObjectStore.put, KeyMap.get?_insert, h]
  simp only [StoreStep.leaves]
  split <;> rfl

theorem Stands.erase (h : store.Stands standing) (key : String) :
    (store.erase key).Stands fun name =>
      (StoreStep.delete key).leaves name (standing name) := by
  intro name
  rw [ObjectStore.erase, KeyMap.get?_erase, h]
  simp only [StoreStep.leaves]
  split <;> rfl

theorem Stands.contains (h : store.Stands standing) (key : String) :
    store.contains key = (standing key).isSome := by
  rw [ObjectStore.contains, KeyMap.contains, h, Option.isSome_map]

/-- Dropping what is not there changes nothing. -/
theorem erase_eq_self {key : String} (h : store.contains key = false) : store.erase key = store :=
  congrArg mk (KeyMap.erase_eq_self h)

theorem mem_keys_iff (store : ObjectStore) (key : String) :
    key ∈ store.keys ↔ store.contains key = true :=
  store.objects.mem_keys_iff key

/-- A document that is there may fail to be read, which is not the same as its not being there. -/
theorem get_eq_none_iff (store : ObjectStore) (key : String) :
    store.get key = .ok none ↔ key ∉ store.keys := by
  rw [mem_keys_iff, ObjectStore.contains, KeyMap.contains, ObjectStore.get]
  cases store.objects.get? key with
  | none => simp
  | some text => cases hdecode : decode text <;> simp [Except.map, hdecode]

theorem Stands.observed (h : store.Stands standing) : store.Observed standing where
  ascending :=
    List.pairwise_map.2 (store.objects.ascending.imp fun hless =>
      (Bytes.ofString_lt_iff _ _).2 hless)
  keys key := by rw [mem_keys_iff, h.contains]
  size := store.length_keys.symm
  empty := by
    rw [← length_keys, List.length_eq_zero_iff, List.eq_nil_iff_forall_not_mem]
    refine forall_congr' fun key => ?_
    rw [mem_keys_iff, h.contains, Bool.not_eq_true, Option.isSome_eq_false_iff,
      Option.isNone_iff_eq_none]
  contains key := (store.mem_keys_iff key).symm
  absent := store.get_eq_none_iff
  get key document hstanding hreadable := by
    have htext : store.objects.get? key = some document.text := by rw [h, hstanding]; rfl
    exact (get_eq_some_iff htext).2 (decode_text hreadable)
  delete key := by simp only [ObjectStore.delete, mem_keys_iff]
  keys_erase := store.objects.keys_erase
  get_erase key other hother := by rw [ObjectStore.get_erase, if_neg hother]
  keys_put := store.mem_keys_put
  get_put _ _ _ hother := get_put_of_ne hother

end ObjectStore

/-! ### One step -/

namespace OpenDatabase

variable {opened : OpenDatabase} {file : Option String} {directory : Directory}
  {path name : String} {content : ObjectStore} {standing : String → Option Document}

/-- The database is the only one of its vault, and it holds its file as nobody else does. -/
structure Sound (file : Option String) (opened : OpenDatabase) : Prop where
  number : opened.database.number = 0
  owned : opened.vault.Owned
  files : opened.vault.cells.map (·.file) = [file]
  held : ∀ path ∈ file, ∃ name, Directory.place path = .file name ∧
    ∃ others, opened.directory.held = name :: others ∧ name ∉ others

/-- The documents of the database are the content of the only cell. -/
theorem Sound.cells (h : opened.Sound file) :
    ∃ own, opened.vault.cells = [⟨opened.store, file, own⟩] := by
  obtain ⟨cell, hcells, hfile⟩ := List.map_eq_singleton_iff.1 h.files
  refine ⟨cell.own, ?_⟩
  rw [store, Vault.content, h.number, hcells, ← hfile]
  rfl

/-- A file that nobody holds and that has the image of a store in it is opened as that store. -/
theorem openAt_file (id : String) (hplace : Directory.place path = .file name)
    (hfree : name ∉ directory.held)
    (hcontent : ObjectStore.ofImage? ((directory.files.get? name).getD []) = some content) :
    ∃ opened, openAt id (some path) directory = .ok opened ∧ opened.Sound (some path) ∧
      opened.store = content := by
  have hrun : (Vault.empty.openFile Directory.access id path).run directory =
      (.ok (Vault.empty.create id content (some path)),
        ⟨directory.files.insert name ((directory.files.get? name).getD []),
          name :: directory.held⟩) := by
    rw [Vault.openFile, Directory.run_bind_eq (Directory.run_hold_ok (Directory.hold_file hplace
      hfree))]
    simp only [hcontent]
    rfl
  refine ⟨_, by rw [openAt, hrun], ⟨rfl, Vault.owned_empty.create id content _, rfl, ?_⟩, rfl⟩
  intro _ hpath
  obtain rfl := Option.mem_some_iff.1 hpath
  exact ⟨name, hplace, directory.held, rfl, hfree⟩

theorem openAt_memory (id : String) (directory : Directory) :
    ∃ opened, openAt id none directory = .ok opened ∧ opened.Sound none ∧ opened.store = ∅ :=
  ⟨_, rfl, ⟨rfl, Vault.owned_empty.create id ∅ none, rfl, fun _ h => nomatch h⟩, rfl⟩

/-- A call on the database is the call on its documents. -/
theorem Sound.call (h : opened.Sound file) (call : StoreCall) :
    (opened.call call).1 = (opened.store.call call).1 ∧ (opened.call call).2.Sound file ∧
      (opened.call call).2.store = (opened.store.call call).2 := by
  have hnumber : opened.database.number < opened.vault.cells.length := by
    obtain ⟨own, hcells⟩ := h.cells
    rw [h.number, hcells]
    exact Nat.one_pos
  obtain ⟨hanswer, hupdated⟩ := Vault.update_spec h.owned hnumber (·.call call)
  refine ⟨hanswer, ⟨h.number, hupdated.owned, ?_, h.held⟩, ?_⟩
  · exact (Vault.files_update opened.vault opened.database (·.call call)).trans h.files
  · exact (hupdated.content _).trans (if_pos rfl)

/-- A store that was in a file is the same when it comes back. -/
theorem Sound.reopen (h : opened.Sound (some path)) (id : String) :
    ∃ again, opened.reopen id (some path) = .ok again ∧ again.Sound (some path) ∧
      again.store = opened.store := by
  obtain ⟨own, hcells⟩ := h.cells
  obtain ⟨name, hplace, others, hheld, hfree⟩ := h.held path rfl
  have hclose : ((opened.vault.close Directory.access).run opened.directory).2 =
      opened.directory.release path opened.store.image := by
    rw [Vault.close, hcells]
    rfl
  rw [OpenDatabase.reopen, hclose, Directory.release_file hplace]
  refine openAt_file id hplace ?_ ?_
  · rw [hheld, List.erase_cons_head]
    exact hfree
  · rw [KeyMap.get?_insert, if_pos rfl, Option.getD_some, ObjectStore.ofImage?_image]

/-! ### Whole runs -/

/-- A step changes what stands in the database as it says, and a memory that is not closed and a
file that is take it without an error. -/
theorem Sound.step (h : opened.Sound file) (id : String) (step : StoreStep)
    (hstep : file = none → step ≠ .reopen) (hstands : opened.store.Stands standing) :
    ∃ next, opened.step id file step = .ok next ∧ next.Sound file ∧
      next.store.Stands fun key => step.leaves key (standing key) := by
  cases step with
  | put key document =>
    obtain ⟨-, hsound, hstore⟩ := h.call (.set key document)
    refine ⟨_, rfl, hsound, ?_⟩
    rw [hstore]
    exact hstands.put key document
  | delete key =>
    obtain ⟨-, hsound, hstore⟩ := h.call (.delete key)
    refine ⟨_, rfl, hsound, ?_⟩
    have hstands := hstands.erase key
    rw [hstore, ObjectStore.call, ObjectStore.delete]
    cases hcontains : opened.store.contains key with
    | true => exact hstands
    | false => exact ObjectStore.erase_eq_self hcontains ▸ hstands
  | reopen =>
    cases file with
    | none => exact absurd rfl (hstep rfl)
    | some path =>
      obtain ⟨again, hagain, hsound, hstore⟩ := h.reopen id
      exact ⟨again, hagain, hsound, hstore ▸ hstands⟩

theorem Sound.run (id : String) {steps : List StoreStep} (hsteps : file = none → .reopen ∉ steps)
    (h : opened.Sound file) (hstands : opened.store.Stands standing) :
    ∃ after, run id file opened steps = .ok after ∧ after.Sound file ∧
      after.store.Stands fun key => steps.foldl (StoreStep.leaves key) (standing key) := by
  induction steps generalizing opened standing with
  | nil => exact ⟨opened, rfl, h, hstands⟩
  | cons step rest ih =>
    obtain ⟨next, hnext, hsound, hstands⟩ := h.step id step
      (fun hfile heq => hsteps hfile (heq ▸ List.mem_cons_self)) hstands
    obtain ⟨after, hafter, hrest⟩ := ih
      (fun hfile member => hsteps hfile (List.mem_cons_of_mem _ member)) hsound hstands
    refine ⟨after, ?_, hrest⟩
    simp only [OpenDatabase.run, hnext, hafter]

/-- A path to a file that nobody holds and that has nothing in it or does not exist. -/
def Vacant (directory : Directory) (path : String) : Prop :=
  ∃ name, Directory.place path = .file name ∧ name ∉ directory.held ∧
    (directory.files.get? name).getD [] = []

/-- A database starts without documents. -/
theorem exists_openAt (id : String) (hfile : ∀ path ∈ file, Vacant directory path) :
    ∃ opened, openAt id file directory = .ok opened ∧ opened.Sound file ∧ opened.store = ∅ := by
  cases file with
  | none => exact openAt_memory id directory
  | some path =>
    obtain ⟨name, hplace, hfree, hbytes⟩ := hfile path rfl
    exact openAt_file id hplace hfree (by rw [hbytes, ObjectStore.ofImage?_nil])

/-- Whatever steps a new database goes through, in memory or in a file that is closed and opened
again meanwhile, every step goes well, and in the end the store shows under each name what the last
step about it left there, the same by whatever call. -/
theorem run_observed (id : String) (file : Option String) (directory : Directory)
    (steps : List StoreStep) (hfile : ∀ path ∈ file, Vacant directory path)
    (hsteps : file = none → .reopen ∉ steps) :
    ∃ opened, (openAt id file directory).bind (run id file · steps) = .ok opened ∧
      opened.store.Observed (StoreStep.standing steps) ∧
      (∀ call, (opened.call call).1 = (opened.store.call call).1 ∧
        (opened.call call).2.store = (opened.store.call call).2) ∧
      (file.isSome → ∃ again, opened.reopen id file = .ok again ∧ again.store = opened.store) := by
  obtain ⟨first, hfirst, hsound, hempty⟩ := exists_openAt id hfile
  obtain ⟨opened, hopened, hsound, hstands⟩ :=
    hsound.run id hsteps (hempty ▸ ObjectStore.stands_empty)
  refine ⟨opened, by rw [hfirst]; exact hopened, hstands.observed, fun call => ?_, fun hsome => ?_⟩
  · obtain ⟨hanswer, -, hstore⟩ := hsound.call call
    exact ⟨hanswer, hstore⟩
  · obtain ⟨path, rfl⟩ := Option.isSome_iff_exists.1 hsome
    obtain ⟨again, hagain, -, hstore⟩ := hsound.reopen id
    exact ⟨again, hagain, hstore⟩

theorem run_observed_in_file :
    let directory : Directory := .ofList []
    let steps : List StoreStep := [.put "b" (.bool true), .put "a" (.integer 1), .delete "c",
      .put "a" (.integer 2), .reopen, .delete "b", .reopen]
    Vacant directory "k" ∧
      ∃ opened, (openAt "main" (some "k") directory).bind (run "main" (some "k") · steps) =
          .ok opened ∧
        (∀ key, key ∈ opened.store.keys ↔ key = "a") ∧
        opened.store.get "a" = .ok (some (.integer 2)) ∧ opened.store.get "b" = .ok none := by
  intro directory steps
  have hvacant : Vacant directory "k" := ⟨"k", Directory.place_k, List.not_mem_nil, rfl⟩
  have htwo : Document.Readable (.integer 2) :=
    ⟨.integer _, .integer (by decide) (by decide), by decide⟩
  obtain ⟨opened, hrun, hobserved, -⟩ := run_observed "main" (some "k") directory steps
    (fun path hpath => Option.mem_some_iff.1 hpath ▸ hvacant) nofun
  have hkeys (key : String) : key ∈ opened.store.keys ↔ key = "a" := by
    rw [hobserved.keys]
    by_cases ha : key = "a"
    · simp [steps, StoreStep.standing, StoreStep.leaves, ha]
    · by_cases hb : key = "b" <;> simp [steps, StoreStep.standing, StoreStep.leaves, ha, hb]
  refine ⟨hvacant, opened, hrun, hkeys, hobserved.get "a" (.integer 2) rfl htwo, ?_⟩
  rw [hobserved.absent, hkeys]
  decide

end OpenDatabase

end DocumentServer
