import DocumentServer.Database.Vault
import DocumentServer.Utility.Registry

/-! The application: databases under names, and the utilities beside them. The names are registered
apart from the databases, so one database may have several names, and a handle outlives its name. -/
namespace DocumentServer

/-- The databases and utilities of a server. -/
structure Application where
  vault : Vault
  /-- The registered databases. -/
  databases : KeyMap Database
  utilities : Registry
  /-- The utilities that the configuration asks for. -/
  wanted : List UtilityConfig
  /-- Where the configuration came from. -/
  configFile : Option String
  /-- The number of streams that were made so far, which is the number of the next. -/
  streams : Nat

namespace Application

def empty (configFile : Option String) : Application := ⟨.empty, ∅, .empty, [], configFile, 0⟩

/-- Registers a database, in place of the one under that name. -/
def setItem (app : Application) (name : String) (database : Database) : Application :=
  { app with databases := app.databases.insert name database }

def addMemory (app : Application) (name id : String) : Application :=
  let (database, vault) := app.vault.create id ∅ none
  { app with vault }.setItem name database

def find? (app : Application) (name : String) : Option Database := app.databases.get? name

def getItem (app : Application) (name : String) : Except DbError Database :=
  match app.find? name with
  | some database => .ok database
  | none => .error (.notFound name)

/-- Drops a name. The database goes on for those who hold it. -/
def delItem (app : Application) (name : String) : Except DbError (Database × Application) :=
  (app.getItem name).map fun database =>
    (database, { app with databases := app.databases.erase name })

def contains (app : Application) (name : String) : Bool := app.databases.contains name

def size (app : Application) : Nat := app.databases.size

/-- The registered names in ascending order. -/
def names (app : Application) : List String := app.databases.keys

def items (app : Application) : List (String × Database) := app.databases.entries

/-- Starts the utilities that the configuration asks for, up to the first that fails. -/
def startUtilities (app : Application) : Except DbError (List String) × Application :=
  let (started, utilities) := app.utilities.startAll app.wanted
  (started, { app with utilities })

def update {α : Type} (app : Application) (database : Database)
    (f : ObjectStore → α × ObjectStore) : α × Application :=
  let (result, vault) := app.vault.update database f
  (result, { app with vault })

def call (app : Application) (database : Database) (call : StoreCall) :
    Except DbError StoreAnswer × Application :=
  app.update database (·.call call)

/-! ### Opening and closing -/

section Files

variable {m : Type → Type} [Monad m]

def openItem (files : FileAccess m) (app : Application) (name : String) (config : DatabaseConfig) :
    m (Except DbError Application) := do
  match config.path with
  | none => return .ok (app.addMemory name name)
  | some path =>
    match ← app.vault.openFile files name path with
    | .error error => return .error error
    | .ok (database, vault) => return .ok ({ app with vault }.setItem name database)

/-- Writes the documents back to their files and gives the files up. -/
def close (files : FileAccess m) (app : Application) : m Unit := app.vault.close files

/-- Opens databases up to the first that fails, which closes the others. -/
def openItems (files : FileAccess m) :
    List (String × DatabaseConfig) → Application → m (Except DbError Application)
  | [], app => return .ok app
  | (name, config) :: rest, app => do
    match ← app.openItem files name config with
    | .error error => app.close files; return .error error
    | .ok app => openItems files rest app

/-- Opens the databases of a configuration and remembers its utilities. -/
def ofConfig (files : FileAccess m) (config : Config) (configFile : Option String) :
    m (Except DbError Application) :=
  openItems files config.databases.entries
    { empty configFile with wanted := config.utilities }

end Files

end Application

end DocumentServer
