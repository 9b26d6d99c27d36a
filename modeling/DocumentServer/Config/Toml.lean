import DocumentServer.Bytes
import DocumentServer.Config.Shape
import DocumentServer.Toml.Reader
import DocumentServer.Toml.Writer

/-! Configurations as files: reading one, and writing one that reads back. -/
namespace DocumentServer.Config

inductive ReadFault where
  /-- The file can not be read as a text. -/
  | io (text : String)
  /-- The text is not well formed. -/
  | notWellFormed
  /-- The text does not describe a configuration. -/
  | shape (fault : ShapeFault)

inductive WriteFault where
  /-- Settings hold null. -/
  | null
  /-- A number does not fit a signed integer of 64 bits. -/
  | tooGreat
  deriving DecidableEq, Repr

namespace WriteFault

def message : WriteFault → String
  | null => "unsupported unit type"
  | tooGreat => "out-of-range value for u64 type"

end WriteFault

def ofText (text : String) : Except ReadFault Config :=
  match Toml.parse text with
  | none => .error .notWellFormed
  | some entries =>
    match Shape.config false (.table (Tree.ofEntries entries)) with
    | .ok config => .ok config
    | .error fault => .error (.shape fault)

def ofBytes (bytes : Bytes) : Except ReadFault Config :=
  match bytes.text? with
  | none => .error (.io "stream did not contain valid UTF-8")
  | some text => ofText text

def ofDocument (document : Document) : Except ShapeFault Config :=
  Shape.config true (.ofDocument document)

def integerValue (n : Int) : Except WriteFault Toml.Value :=
  if n ≤ Document.maxSigned then .ok (.integer n) else .error .tooGreat

mutual

def valueOf : Document → Except WriteFault Toml.Value
  | .null => .error .null
  | .bool value => .ok (.boolean value)
  | .integer value => integerValue value
  | .real value => .ok (.real (.finite value))
  | .string text => .ok (.string text)
  | .array items => do return .array (← valuesOf items)
  | .object members => do return .table (← entriesOf members)

def valuesOf : List Document → Except WriteFault (List Toml.Value)
  | [] => .ok []
  | item :: rest => do return (← valueOf item) :: (← valuesOf rest)

def entriesOf : List (String × Document) → Except WriteFault (List (String × Toml.Value))
  | [] => .ok []
  | (name, value) :: rest => do return (name, ← valueOf value) :: (← entriesOf rest)

end

def databaseEntry (entry : String × DatabaseConfig) : String × Toml.Value :=
  (entry.1, .table (entry.2.path.toList.map fun path => ("path", .string path)))

def utilityValue (utility : UtilityConfig) : Except WriteFault Toml.Value := do
  return .table [
    ("provides", .string utility.provides),
    ("factory", .string utility.factory),
    ("settings", ← valueOf utility.settings)]

def utilityValues : List UtilityConfig → Except WriteFault (List Toml.Value)
  | [] => .ok []
  | utility :: rest => do return (← utilityValue utility) :: (← utilityValues rest)

def entries (config : Config) : Except WriteFault (List (String × Toml.Value)) := do
  let server : Toml.Value := .table [
    ("host", .string config.server.host),
    ("port", .integer config.server.port.toNat),
    ("stream_buffer", ← integerValue config.server.streamBuffer)]
  let utilities ← utilityValues config.utilities
  return [
    ("server", server),
    ("databases", .table (config.databases.entries.map databaseEntry)),
    ("utilities", .array utilities)]

def render (config : Config) : Except WriteFault String := do
  return Toml.write (← config.entries)

end DocumentServer.Config
