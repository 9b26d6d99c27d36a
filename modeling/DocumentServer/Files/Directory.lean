import DocumentServer.Files.Access
import DocumentServer.KeyMap

/-! A directory of files without further directories below it, the paths that lead to its files, and
access to them. -/
namespace DocumentServer

structure Directory where
  files : KeyMap Bytes
  /-- The names of the files that are held. -/
  held : List String

namespace Directory

def ofList (files : List (String × Bytes)) : Directory := ⟨.ofList files, []⟩

/-- Where a path leads. -/
inductive Place where
  /-- To the place for a file of this name. -/
  | file (name : String)
  /-- To the place for a directory of this name. -/
  | folder (name : String)
  /-- Below a file or directory of this name. -/
  | below (name : String)
  /-- To the directory itself or to one above it. -/
  | above
  /-- Nowhere, whatever the directory holds. -/
  | none (fault : PathFault)
  deriving DecidableEq, Repr

/-- The bytes that a name may have at most. -/
def longestName : Nat := 255

/-- The bytes that a path may have at most. -/
def longestPath : Nat := 4095

/-- The place of a path within the directory. Empty parts and single dots at the beginning mean the
directory itself, and there are no directories elsewhere that a path could lead to. -/
def place (path : String) : Place :=
  let parts := (path.splitOn "/").filter (· ≠ "")
  if path.contains '\x00' then .none .zeroInName
  else if path = "" then .none .notFound
  else if longestPath < path.utf8ByteSize then .none .nameTooLong
  else if path.startsWith "/" then if parts.isEmpty then .above else .none .notFound
  else
    match parts.dropWhile (· = ".") with
    | [] => .above
    | [".."] => .above
    | name :: rest =>
      if longestName < name.utf8ByteSize then .none .nameTooLong
      else if rest.isEmpty then if path.endsWith "/" then .folder name else .file name
      else .below name

/-- What a path that leads below a name meets. -/
def faultBelow (directory : Directory) (name : String) : PathFault :=
  if directory.files.contains name then .notDirectory else .notFound

/-- The name of the file that a path means, when a file may be made there. -/
def nameToWrite (directory : Directory) (path : String) : Except PathFault String :=
  match place path with
  | .file name => .ok name
  | .folder _ => .error .isDirectory
  | .above => .error .isDirectory
  | .below name => .error (directory.faultBelow name)
  | .none fault => .error fault

def isPresent (directory : Directory) (path : String) : Bool :=
  match place path with
  | .file name => directory.files.contains name
  | .above => true
  | _ => false

def read (directory : Directory) (path : String) : Except PathFault Bytes :=
  match place path with
  | .file name =>
    match directory.files.get? name with
    | some bytes => .ok bytes
    | none => .error .notFound
  | .above => .error .isDirectory
  | .folder name => .error (directory.faultBelow name)
  | .below name => .error (directory.faultBelow name)
  | .none fault => .error fault

def write (directory : Directory) (path : String) (bytes : Bytes) :
    Except PathFault Directory :=
  (directory.nameToWrite path).map fun name =>
    { directory with files := directory.files.insert name bytes }

/-- Holds a file, making an empty one if there is none. -/
def hold (directory : Directory) (path : String) : Except HoldFault (Bytes × Directory) :=
  match directory.nameToWrite path with
  | .error fault => .error (.path fault)
  | .ok name =>
    if directory.held.contains name then .error .held
    else
      let bytes := (directory.files.get? name).getD []
      .ok (bytes, ⟨directory.files.insert name bytes, name :: directory.held⟩)

/-- Gives up a file, leaving these bytes in it. -/
def release (directory : Directory) (path : String) (bytes : Bytes) : Directory :=
  match directory.nameToWrite path with
  | .error _ => directory
  | .ok name => ⟨directory.files.insert name bytes, directory.held.erase name⟩

/-- Access to the files of a directory that is the state. -/
def access : FileAccess (StateM Directory) where
  isPresent path := return (← get).isPresent path
  read path := return (← get).read path
  write path bytes := do
    match (← get).write path bytes with
    | .ok directory => set directory; return .ok ()
    | .error fault => return .error fault
  hold path := do
    match (← get).hold path with
    | .ok (bytes, directory) => set directory; return .ok bytes
    | .error fault => return .error fault
  release path bytes := modify (·.release path bytes)

end Directory

end DocumentServer
