import DocumentServer.CommandLine.Run

/-! The command line on the files of the machine. -/
namespace DocumentServer

/-- Actions that know which files they hold. -/
abbrev Machine := StateT (List String) IO

namespace Machine

/-- What an error of the system means for a path. -/
def faultOf : IO.Error → PathFault
  | .noFileOrDirectory .. => .notFound
  | error => .other (toString error)

/-- Runs an action on a file and gives its error as a fault. -/
def attempt {α : Type} (action : IO α) : Machine (Except PathFault α) := do
  match ← action.toBaseIO with
  | .ok value => return .ok value
  | .error error => return .error (faultOf error)

def readBytes (path : String) : IO Bytes := return (← IO.FS.readBinFile path).data.toList

def writeBytes (path : String) (bytes : Bytes) : IO Unit :=
  IO.FS.writeBinFile path ⟨bytes.toArray⟩

/-- Makes a file if there is none. -/
def touch (path : String) : IO Unit := do
  let _ ← IO.FS.Handle.mk path .append

def files : FileAccess Machine where
  isPresent path := do
    match ← attempt (IO.FS.Handle.mk path .read) with
    | .ok _ => return true
    | .error fault => return fault ≠ .notFound
  read path := attempt (readBytes path)
  write path bytes := attempt (writeBytes path bytes)
  hold path := do
    if (← get).contains path then return .error .held
    match ← attempt (do touch path; readBytes path) with
    | .error fault => return .error (.path fault)
    | .ok bytes =>
      modify (path :: ·)
      return .ok bytes
  release path bytes := do
    let _ ← attempt (writeBytes path bytes)
    modify (·.erase path)

end Machine

def usageText : String :=
  "Usage: document-server init [--output FILE] [--database NAME]\n" ++
    "       document-server serve [--config FILE]"

def runCommand (arguments : List String) : IO UInt32 := do
  let (ending, _) ← (CommandLine.run Machine.files arguments).run []
  match ending with
  | .help => IO.println usageText
  | .usage => IO.eprintln usageText
  | _ =>
    if let some text := ending.complaint? then IO.eprintln text
  return ending.exitCode.toUInt32

end DocumentServer

def main (arguments : List String) : IO UInt32 := DocumentServer.runCommand arguments
