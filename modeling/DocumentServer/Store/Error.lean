import DocumentServer.Files.Access

/-! What can go wrong with databases and with the utilities beside them, each cause with its
wording. -/
namespace DocumentServer

/-- Why a store can not be opened. -/
inductive OpenFault where
  /-- The file can not be held. -/
  | file (fault : HoldFault)
  /-- The file holds something else. -/
  | notAStore
  deriving DecidableEq, Repr

inductive DbError where
  | opening (fault : OpenFault)
  | transaction (text : String)
  | table (text : String)
  | reading (text : String)
  | writing (text : String)
  /-- A document can not be stored as a text. -/
  | encoding (text : String)
  /-- A stored text can not be read as a document. -/
  | decoding (text : String)
  | notFound (name : String)
  | duplicateIdentifier (id : String)
  | unknownIdentifier (id : String)
  | unknownFactory (name : String)
  | settings (text : String)
  deriving DecidableEq, Repr

namespace OpenFault

def text : OpenFault → String
  | file (.path fault) => s!"I/O error: {fault.text}"
  | file .held => "Database already open. Cannot acquire lock."
  | notAStore => "I/O error: invalid data"

end OpenFault

namespace DbError

def message : DbError → String
  | opening fault => s!"failed to open database: {fault.text}"
  | transaction text => s!"transaction error: {text}"
  | table text => s!"table error: {text}"
  | reading text => s!"read error: {text}"
  | writing text => s!"write error: {text}"
  | encoding text => s!"serialization error: {text}"
  | decoding text => s!"deserialization error: {text}"
  | notFound name => s!"not found: {name}"
  | duplicateIdentifier id => s!"an async utility already exists with id {id}"
  | unknownIdentifier id => s!"no async utility registered with id {id}"
  | unknownFactory name => s!"unknown utility factory: {name}"
  | settings text => s!"invalid utility settings: {text}"

end DbError

end DocumentServer
