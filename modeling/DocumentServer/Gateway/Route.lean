import DocumentServer.Text.Percent

/-! What a request is about, read off its path. The parts of a path are compared as they stand and
decoded afterwards, so an encoded slash does not part anything and an encoded `@items` is the name
of an object. -/
namespace DocumentServer

inductive Route where
  /-- The list of databases. -/
  | databases
  | database (name : String)
  /-- Every object of a database. -/
  | items (name : String)
  | object (name key : String)
  deriving DecidableEq, Repr

/-- Why a path is about nothing. -/
inductive RouteFault where
  | unknown
  /-- A part of the path does not encode a text. -/
  | invalidText (parameter : String)
  deriving DecidableEq, Repr

namespace Route

def slash : UInt8 := 47

/-- The part of a path that stands for every object of a database. -/
def itemsPart : Bytes := .ofString "@items"

/-- The text that a part of a path encodes. -/
def parameter (name : String) (part : Bytes) : Except RouteFault String :=
  match (Percent.decode part).text? with
  | some text => .ok text
  | none => .error (.invalidText name)

def ofParts : List Bytes → Except RouteFault Route
  | [[], []] => .ok .databases
  | [[], name] => return .database (← parameter "db" name)
  | [[], name, key] =>
    if name.isEmpty || key.isEmpty then .error .unknown
    else if key = itemsPart then return .items (← parameter "db" name)
    else return .object (← parameter "db" name) (← parameter "key" key)
  | _ => .error .unknown

def ofPath (path : String) : Except RouteFault Route :=
  ofParts (Bytes.splitOn slash (.ofString path))

def path : Route → String
  | databases => "/"
  | database name => "/" ++ Percent.encode name
  | items name => "/" ++ Percent.encode name ++ "/@items"
  | object name key => "/" ++ Percent.encode name ++ "/" ++ Percent.encode key

/-- What follows the first place where these characters stand, if they do. -/
def after? (mark : List Char) : List Char → Option (List Char)
  | [] => none
  | c :: rest =>
    if mark.isPrefixOf (c :: rest) then some ((c :: rest).drop mark.length) else after? mark rest

/-- The path of an address, which ends where a query or a fragment begins. An address may name a
scheme and a host in front of the path. -/
def pathOf (address : String) : String :=
  let chars := address.toList.takeWhile fun c => c ≠ '?' ∧ c ≠ '#'
  if chars.head? = some '/' then .ofList chars
  else
    match after? [':', '/', '/'] chars with
    | none => .ofList chars
    | some rest =>
      match rest.dropWhile (· ≠ '/') with
      | [] => "/"
      | path => .ofList path

end Route

end DocumentServer
