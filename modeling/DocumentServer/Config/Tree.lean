import DocumentServer.Document.Basic
import DocumentServer.Number.Layout
import DocumentServer.Text.Quoted
import DocumentServer.Toml.Value

/-! Values before it is known what they configure. Both documents and configuration texts become
such trees; `kind` says how messages name a value. -/
namespace DocumentServer

/-- A value that configures something. -/
inductive Tree where
  | nothing
  | boolean (value : Bool)
  | integer (value : Int)
  /-- A binary number, unless it is infinite or none, with its wording in messages. -/
  | real (wording : String) (value : Option Binary64)
  | string (text : String)
  | sequence (items : List Tree)
  | table (entries : List (String × Tree))

namespace Tree

/-- How messages name a value. -/
def kind : Tree → String
  | nothing => "null"
  | boolean value => s!"boolean `{value}`"
  | integer value => s!"integer `{value}`"
  | real wording _ => s!"floating point `{wording}`"
  | string text => s!"string {Text.quoted text}"
  | sequence _ => "sequence"
  | table _ => "map"

mutual

def ofDocument : Document → Tree
  | .null => .nothing
  | .bool value => .boolean value
  | .integer value => .integer value
  | .real value => .real (NumberLayout.document.text value) (some value)
  | .string text => .string text
  | .array items => .sequence (ofItems items)
  | .object members => .table (ofMembers members)

def ofItems : List Document → List Tree
  | [] => []
  | item :: rest => ofDocument item :: ofItems rest

def ofMembers : List (String × Document) → List (String × Tree)
  | [] => []
  | (name, value) :: rest => (name, ofDocument value) :: ofMembers rest

end

def ofReal : Toml.Real → Tree
  | .finite x => .real (NumberLayout.configuration.text x) (some x)
  | .infinite true => .real "-inf" none
  | .infinite false => .real "inf" none
  | .notANumber => .real "NaN" none

/-- The name of the entry that stands for a moment. -/
def momentKey : String := "$__toml_private_datetime"

mutual

/-- The tree of a configuration value. A moment becomes a table with one entry. -/
def ofValue : Toml.Value → Tree
  | .string text => .string text
  | .integer value => .integer value
  | .real value => ofReal value
  | .boolean value => .boolean value
  | .moment text => .table [(momentKey, .string text)]
  | .array items => .sequence (ofValues items)
  | .table entries => .table (ofEntries entries)

def ofValues : List Toml.Value → List Tree
  | [] => []
  | item :: rest => ofValue item :: ofValues rest

def ofEntries : List (String × Toml.Value) → List (String × Tree)
  | [] => []
  | (key, value) :: rest => (key, ofValue value) :: ofEntries rest

end

mutual

/-- A tree as a document. Numbers that are not finite become null. -/
def toDocument : Tree → Document
  | .nothing => .null
  | .boolean value => .bool value
  | .integer value => .integer value
  | .real _ value => value.elim .null .real
  | .string text => .string text
  | .sequence items => .array (toItems items)
  | .table entries => .ofMembers (toMembers entries)

def toItems : List Tree → List Document
  | [] => []
  | item :: rest => toDocument item :: toItems rest

def toMembers : List (String × Tree) → List (String × Document)
  | [] => []
  | (key, value) :: rest => (key, toDocument value) :: toMembers rest

end

end Tree

end DocumentServer
