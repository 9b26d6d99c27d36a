import DocumentServer.Files.Access
import DocumentServer.Store.Call
import DocumentServer.Store.Image

/-! Databases, the managers that give access to them, and the roots that calls are made on. They are
all handles: the documents themselves lie in a vault, so a change made through one handle is seen
through every other handle of the same database. -/
namespace DocumentServer

structure Database where
  /-- Tells databases apart; no two share it. -/
  number : Nat
  /-- The identifier that the database was made under. -/
  id : String
  deriving DecidableEq, Repr

/-- A handle that gives out roots. -/
structure Manager where
  /-- Tells managers apart; later ones have greater numbers. -/
  id : Nat
  /-- The number of the database. -/
  database : Nat
  deriving DecidableEq, Repr

/-- A handle that calls are made on. -/
structure Root where
  /-- The number of the database. -/
  database : Nat
  deriving DecidableEq, Repr

structure Cell where
  content : ObjectStore
  /-- The file that the documents come from and go back to. -/
  file : Option String
  /-- The manager that belongs to the database, once it was asked for. -/
  own : Option Manager

/-- The databases that were made. -/
structure Vault where
  /-- One cell for each database, by number. -/
  cells : List Cell
  /-- How many managers were made. -/
  issued : Nat

def Manager.root (manager : Manager) : Root := ⟨manager.database⟩

namespace Vault

def empty : Vault := ⟨[], 0⟩

def create (vault : Vault) (id : String) (content : ObjectStore) (file : Option String) :
    Database × Vault :=
  (⟨vault.cells.length, id⟩, { vault with cells := vault.cells ++ [⟨content, file, none⟩] })

def content (vault : Vault) (number : Nat) : ObjectStore :=
  (vault.cells[number]?).elim ∅ (·.content)

def modify (vault : Vault) (number : Nat) (f : Cell → Cell) : Vault :=
  { vault with cells := vault.cells.modify number f }

def newManager (vault : Vault) (database : Database) : Manager × Vault :=
  (⟨vault.issued + 1, database.number⟩, { vault with issued := vault.issued + 1 })

/-- The manager that belongs to a database, which is made when it is first asked for. -/
def ownManager (vault : Vault) (database : Database) : Manager × Vault :=
  match (vault.cells[database.number]?).bind (·.own) with
  | some manager => (manager, vault)
  | none =>
    let (manager, vault) := vault.newManager database
    (manager, vault.modify database.number ({ · with own := some manager }))

/-- The given manager, or else the one that belongs to the database. -/
def managerFor (vault : Vault) (database : Database) (given : Option Manager) : Manager × Vault :=
  match given with
  | some manager => (manager, vault)
  | none => vault.ownManager database

/-- Works on the documents behind a root. -/
def updateRoot {α : Type} (vault : Vault) (root : Root) (f : ObjectStore → α × ObjectStore) :
    α × Vault :=
  let (result, content) := f (vault.content root.database)
  (result, vault.modify root.database ({ · with content }))

def update {α : Type} (vault : Vault) (database : Database) (f : ObjectStore → α × ObjectStore) :
    α × Vault :=
  let (manager, vault) := vault.ownManager database
  vault.updateRoot manager.root f

def callRoot (vault : Vault) (root : Root) (call : StoreCall) :
    Except DbError StoreAnswer × Vault :=
  vault.updateRoot root (·.call call)

def call (vault : Vault) (database : Database) (call : StoreCall) :
    Except DbError StoreAnswer × Vault :=
  vault.update database (·.call call)

/-- Makes a database of the documents in a file. A file that holds something else is left as it
is. -/
def openFile {m : Type → Type} [Monad m] (files : FileAccess m) (vault : Vault) (id path : String) :
    m (Except DbError (Database × Vault)) := do
  match ← files.hold path with
  | .error fault => return .error (.opening (.file fault))
  | .ok bytes =>
    match ObjectStore.ofImage? bytes with
    | some content => return .ok (vault.create id content (some path))
    | none =>
      files.release path bytes
      return .error (.opening .notAStore)

def close {m : Type → Type} [Monad m] (files : FileAccess m) (vault : Vault) : m Unit :=
  vault.cells.forM fun cell =>
    match cell.file with
    | some path => files.release path cell.content.image
    | none => pure ()

end Vault

end DocumentServer
