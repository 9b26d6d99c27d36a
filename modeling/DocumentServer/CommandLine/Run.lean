import DocumentServer.Application
import DocumentServer.CommandLine.Address
import DocumentServer.CommandLine.Arguments
import DocumentServer.Config.Toml

/-! Running a command: writing a first configuration, or opening what a configuration asks for up to
the point where the server would listen. -/
namespace DocumentServer

inductive Ending where
  | done
  /-- Help was asked for. -/
  | help
  /-- The arguments make no command. -/
  | usage
  /-- Everything is open and the server can listen at a host and a port. -/
  | ready (host : String) (port : UInt16)
  | failed (text : String)
  deriving DecidableEq, Repr

def Ending.exitCode : Ending → Nat
  | done => 0
  | help => 0
  | usage => 2
  | ready .. => 0
  | failed _ => 1

/-- What is written about an ending, if it is a failure. -/
def Ending.complaint? : Ending → Option String
  | failed text => some s!"Error: {text}"
  | _ => none

namespace CommandLine

variable {m : Type → Type} [Monad m]

/-- Writes a first configuration, unless there is a file already. -/
def init (files : FileAccess m) (output database : String) : m Ending := do
  if ← files.isPresent output then return .failed s!"{output} already exists"
  match (Config.scaffold database).render with
  | .error fault => return .failed fault.message
  | .ok text =>
    match ← files.write output (.ofString text) with
    | .error _ => return .failed s!"writing {output}"
    | .ok _ => return .done

/-- Starts the utilities of an application and checks where it is to listen. -/
def prepare (app : Application) (server : ServerConfig) : Ending :=
  let app := { app with utilities := app.utilities.registerBuiltin }
  match app.startUtilities with
  | (.error error, _) => .failed error.message
  | (.ok _, _) =>
    if Address.isHost server.host then .ready server.host server.port
    else .failed s!"invalid listen address {server.host}:{server.port.toNat}"

/-- Opens what a configuration file asks for. -/
def serve (files : FileAccess m) (path : String) : m Ending := do
  let loaded : Except Config.ReadFault Config :=
    match ← files.read path with
    | .error fault => .error (.io fault.text)
    | .ok bytes => Config.ofBytes bytes
  match loaded with
  | .error _ => return .failed s!"loading {path}"
  | .ok config =>
    match ← Application.ofConfig files config (some path) with
    | .error error => return .failed error.message
    | .ok app =>
      let ending := prepare app config.server
      app.close files
      return ending

def run (files : FileAccess m) (arguments : List String) : m Ending :=
  match Arguments.read arguments with
  | .error .help => return .help
  | .error .usage => return .usage
  | .ok .help => return .help
  | .ok (.serve config) => serve files config
  | .ok (.init output database) => init files output database

end CommandLine

end DocumentServer
