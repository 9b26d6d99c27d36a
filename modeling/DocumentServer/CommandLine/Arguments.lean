/-! The arguments of a command line. They are read from the left; the first that does not fit ends
the reading, and so does a call for help. -/
namespace DocumentServer

inductive Command where
  /-- Serve the databases of a configuration file. -/
  | serve (config : String)
  /-- Write a first configuration file. -/
  | init (output database : String)
  | help
  deriving DecidableEq, Repr

/-- An option of a command. Every option takes a value. -/
structure CommandOption where
  name : String
  /-- The value when the option is not given. -/
  default : String
  /-- Whether the value may be empty. -/
  allowsEmpty : Bool
  deriving DecidableEq, Repr

/-- Why reading ends before the last argument. -/
inductive ArgumentStop where
  | help
  /-- The arguments make no command. -/
  | usage
  deriving DecidableEq, Repr

namespace Arguments

def serveOptions : List CommandOption := [⟨"config", "keystone.toml", false⟩]

def initOptions : List CommandOption :=
  [⟨"output", "keystone.toml", false⟩, ⟨"database", "db", true⟩]

abbrev Given := List (String × String)

/-- An argument of the form of an option: its name, and the value that is attached to it. -/
def longOption? (argument : String) : Option (String × Option String) :=
  match argument.toList with
  | '-' :: '-' :: rest =>
    let name := String.ofList (rest.takeWhile (· ≠ '='))
    match rest.dropWhile (· ≠ '=') with
    | [] => some (name, none)
    | _ :: value => some (name, some (.ofList value))
  | _ => none

/-- Whether an argument can be the value of the option before it. -/
def isValue (argument : String) : Bool := argument = "-" || !argument.startsWith "-"

/-- Adds an option with its value. No option may be given twice. -/
def give (options : List CommandOption) (name value : String) (given : Given) :
    Except ArgumentStop Given :=
  match options.find? (·.name = name) with
  | none => .error .usage
  | some option =>
    if (given.lookup name).isSome || (value = "" && !option.allowsEmpty) then .error .usage
    else .ok ((name, value) :: given)

/-- Whether an argument is the short call for help, or begins with it. -/
def isShortHelp (argument : String) : Bool := argument.startsWith "-h"

/-- Reads the arguments behind the name of a command. -/
def readOptions (options : List CommandOption) : List String → Given → Except ArgumentStop Given
  | [], given => .ok given
  | argument :: rest, given =>
    if argument = "--" then if rest.isEmpty then .ok given else .error .usage
    else
      match longOption? argument with
      | some ("help", none) => .error .help
      | some (name, some value) => do readOptions options rest (← give options name value given)
      | some (name, none) =>
        match rest with
        | [] => .error .usage
        | value :: rest =>
          if isValue value then do readOptions options rest (← give options name value given)
          else .error .usage
      | none => if isShortHelp argument then .error .help else .error .usage

def valueOf (given : Given) (option : CommandOption) : String :=
  (given.lookup option.name).getD option.default

/-- The values of options, in the order in which the options are listed. -/
def values (options : List CommandOption) (arguments : List String) :
    Except ArgumentStop (List String) := do
  let given ← readOptions options arguments []
  return options.map (valueOf given)

/-- The names that help can be asked for. -/
def topics : List String := ["serve", "init", "help"]

def read : List String → Except ArgumentStop Command
  | "serve" :: rest => do
    match ← values serveOptions rest with
    | [config] => return .serve config
    | _ => throw .usage
  | "init" :: rest => do
    match ← values initOptions rest with
    | [output, database] => return .init output database
    | _ => throw .usage
  | ["help"] => .ok .help
  | ["help", topic] => if topics.contains topic then .ok .help else .error .usage
  | "--help" :: _ => .ok .help
  | argument :: _ => if isShortHelp argument then .ok .help else .error .usage
  | [] => .error .usage

end Arguments

end DocumentServer
