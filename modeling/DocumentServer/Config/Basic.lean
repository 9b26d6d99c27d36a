import DocumentServer.Document.Text

/-! The configuration of a server: where it listens, which databases it opens and which utilities
run beside them. -/
namespace DocumentServer

structure ServerConfig where
  host : String := "0.0.0.0"
  port : UInt16 := 8080
  /-- The frames of a response that may wait for the client. -/
  streamBuffer : Nat := 16
  deriving DecidableEq, Repr

/-- Where a database is kept: in a file, or in memory. -/
structure DatabaseConfig where
  path : Option String := none
  deriving DecidableEq, Repr

structure UtilityConfig where
  /-- The identifier that it is registered under. -/
  provides : String
  /-- The name of the factory that builds it. -/
  factory : String
  settings : Document := .emptyObject

structure Config where
  server : ServerConfig := {}
  databases : KeyMap DatabaseConfig := ∅
  utilities : List UtilityConfig := []

namespace Config

/-- A first configuration: one database in memory, and a heartbeat. -/
def scaffold (database : String) : Config where
  databases := KeyMap.empty.insert database {}
  utilities := [{
    provides := "heartbeat"
    factory := "heartbeat"
    settings := .ofMembers [("interval_secs", .integer 60)] }]

/-- A configuration as a document whose members stand in the order of the fields. -/
def document (config : Config) : Document :=
  .object [
    ("server", .object [
      ("host", .string config.server.host),
      ("port", .integer config.server.port.toNat),
      ("stream_buffer", .integer config.server.streamBuffer)]),
    ("databases", .object (config.databases.entries.map fun entry =>
      (entry.1, .object [("path", entry.2.path.elim .null .string)]))),
    ("utilities", .array (config.utilities.map fun utility => .object [
      ("provides", .string utility.provides),
      ("factory", .string utility.factory),
      ("settings", utility.settings)]))]

end Config

end DocumentServer
