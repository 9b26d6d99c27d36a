import DocumentServer.Config.Basic
import DocumentServer.Config.Tree

/-! Giving values the shape of a configuration. A record may be written as a table of its fields or
as a sequence in their order; entries that name no field are passed over. Fields are read in the
order of the table, and the first one that does not fit is reported. -/
namespace DocumentServer

/-- Why a value does not have the shape of a configuration. -/
inductive ShapeFault where
  /-- A value of another kind. -/
  | type (found : Tree) (expected : String)
  /-- A number out of range. -/
  | value (found : Tree) (expected : String)
  | length (count : Nat) (expected : String)
  | missing (field : String)
  | unknownField (field expected : String)

namespace ShapeFault

def message : ShapeFault → String
  | type found expected => s!"invalid type: {found.kind}, expected {expected}"
  | value found expected => s!"invalid value: {found.kind}, expected {expected}"
  | length count expected => s!"invalid length {count}, expected {expected}"
  | missing field => s!"missing field `{field}`"
  | unknownField field expected => s!"unknown field `{field}`, expected {expected}"

end ShapeFault

/-- A value of the wanted shape, or why there is none. -/
abbrev Shaped (α : Type) := Except ShapeFault α

namespace Shape

def text (expected : String) : Tree → Shaped String
  | .string text => .ok text
  | found => .error (.type found expected)

/-- An integer from zero to a limit. -/
def natural (limit : Int) (expected : String) : Tree → Shaped Nat
  | .integer value =>
    if 0 ≤ value ∧ value ≤ limit then .ok value.toNat
    else .error (.value (.integer value) expected)
  | found => .error (.type found expected)

/-- Reads the entries of a table one after the other into what was read before. -/
def readEntries {α : Type} (read : String → Tree → α → Shaped α) :
    List (String × Tree) → α → Shaped α
  | [], seen => .ok seen
  | (key, value) :: rest, seen => do readEntries read rest (← read key value seen)

/-- Reads the items of a sequence as the fields of a record. When `strict` is set, there may be no
more items than fields. -/
def readFields {α : Type} (strict : Bool) (read : String → Tree → α → Shaped α)
    (fields : List String) (items : List Tree) (seen : α) : Shaped α := do
  let found ← readEntries read (fields.zip items) seen
  if strict && fields.length < items.length then
    throw (.length items.length "fewer elements in array")
  return found

def readAll {α : Type} (read : Tree → Shaped α) : List Tree → Shaped (List α)
  | [] => .ok []
  | item :: rest => do return (← read item) :: (← readAll read rest)

def serverField (key : String) (value : Tree) (server : ServerConfig) : Shaped ServerConfig :=
  match key with
  | "host" => do return { server with host := ← text "a string" value }
  | "port" => do return { server with port := (← natural 65535 "u16" value).toUInt16 }
  | "stream_buffer" => do
    return { server with streamBuffer := ← natural Document.maxInteger "usize" value }
  | _ => .ok server

def server (strict : Bool) : Tree → Shaped ServerConfig
  | .table entries => readEntries serverField entries {}
  | .sequence items => readFields strict serverField ["host", "port", "stream_buffer"] items {}
  | found => .error (.type found "struct ServerConfig")

def databaseField (key : String) (value : Tree) (database : DatabaseConfig) :
    Shaped DatabaseConfig :=
  match key, value with
  | "path", .nothing => .ok { database with path := none }
  | "path", value => do return { database with path := some (← text "path string" value) }
  | _, _ => .ok database

def database (strict : Bool) : Tree → Shaped DatabaseConfig
  | .table entries => readEntries databaseField entries {}
  | .sequence [] => .error (.length 0 "struct DatabaseConfig with 1 element")
  | .sequence items => readFields strict databaseField ["path"] items {}
  | found => .error (.type found "struct DatabaseConfig")

/-- One of several databases. -/
def namedDatabase (strict : Bool) (name : String) (value : Tree)
    (databases : KeyMap DatabaseConfig) : Shaped (KeyMap DatabaseConfig) := do
  return databases.insert name (← database strict value)

def databases (strict : Bool) : Tree → Shaped (KeyMap DatabaseConfig)
  | .table entries => readEntries (namedDatabase strict) entries ∅
  | found => .error (.type found "a map")

/-- The fields of a utility's record as far as they were read. -/
structure UtilityFields where
  provides : Option String := none
  factory : Option String := none
  settings : Option Document := none

def utilityField (key : String) (value : Tree) (fields : UtilityFields) : Shaped UtilityFields :=
  match key with
  | "provides" => do return { fields with provides := some (← text "a string" value) }
  | "factory" => do return { fields with factory := some (← text "a string" value) }
  | "settings" => .ok { fields with settings := some value.toDocument }
  | _ => .ok fields

/-- The utility that the fields describe, or what the lack of a field leads to. -/
def utilityOf (lack : Nat → String → ShapeFault) (fields : UtilityFields) : Shaped UtilityConfig :=
  match fields.provides, fields.factory with
  | some provides, some factory =>
    .ok { provides, factory, settings := fields.settings.getD .emptyObject }
  | none, _ => .error (lack 0 "provides")
  | _, none => .error (lack 1 "factory")

def utility (strict : Bool) : Tree → Shaped UtilityConfig
  | .table entries => do
    utilityOf (fun _ field => .missing field) (← readEntries utilityField entries {})
  | .sequence items => do
    let fields ← readFields false utilityField ["provides", "factory", "settings"] items {}
    let utility ← utilityOf
      (fun count _ => .length count "struct UtilityConfig with 3 elements") fields
    if strict && 3 < items.length then throw (.length items.length "fewer elements in array")
    return utility
  | found => .error (.type found "struct UtilityConfig")

def utilities (strict : Bool) : Tree → Shaped (List UtilityConfig)
  | .sequence items => readAll (utility strict) items
  | found => .error (.type found "a sequence")

def configField (strict : Bool) (key : String) (value : Tree) (config : Config) : Shaped Config :=
  match key with
  | "server" => do return { config with server := ← server strict value }
  | "databases" => do return { config with databases := ← databases strict value }
  | "utilities" => do return { config with utilities := ← utilities strict value }
  | _ => .ok config

def config (strict : Bool) : Tree → Shaped Config
  | .table entries => readEntries (configField strict) entries {}
  | .sequence items =>
    readFields strict (configField strict) ["server", "databases", "utilities"] items {}
  | found => .error (.type found "struct KeystoneConfig")

end Shape

end DocumentServer
