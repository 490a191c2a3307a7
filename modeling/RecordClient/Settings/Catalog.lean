import RecordClient.Settings.Basic
import RecordClient.Json.Reader
import RecordClient.Error.Basic
/-!
# The catalog of connections

The configuration file: an object with the settings of named connections, the protocol of those
that do not name one, and whether filled gaps are announced. The settings of its connections are
completed by `Catalog.complete`.
-/
namespace RecordClient

structure Catalog where
  announce : Bool := true
  connections : List (String × Settings) := []
  defaultProtocol : Protocol := .default
  deriving DecidableEq, Repr

namespace Catalog

/-! ### Reading -/

def knownKeys : List String := ["warnings", "connections", "default_client"]

def connectionsOfJson : Json → Except Json.Misfit (List (String × Settings))
  | .object fields => fields.mapM fun (name, v) => return (name, ← Settings.ofJson v)
  | v => Json.wrongType v "a map"

def setField (c : Catalog) (field : String) (v : Json) : Except Json.Misfit Catalog := do
  match field with
  | "warnings" => return { c with announce := ← Json.asBool v }
  | "connections" => return { c with connections := ← connectionsOfJson v }
  | "default_client" => return { c with defaultProtocol := ← Protocol.ofJson v }
  | _ => return c

def ofFields (fields : Json.Fields) : Except Json.Misfit Catalog :=
  Json.asStructure knownKeys "struct Config" {} setField (.object fields)

def unknownKeys (fields : Json.Fields) : List String :=
  (fields.map Prod.fst).filter fun key => !knownKeys.contains key

def unknownNotices (path : String) (fields : Json.Fields) : List String :=
  let keys := unknownKeys fields
  if keys = [] then []
  else ["ignoring unknown keys in " ++ path ++ ": " ++ Text.shownList keys]

def readFields (text : String) : Except Json.DecodeError Json.Fields :=
  Json.readWhole (Json.Reader.asObject "a map" Json.greatestDepth) text

inductive Source where
  | absent
  | unreadable
  | file (text : String)
  deriving DecidableEq, Repr

/-- The catalog of a file, with the notices given on the way. A missing file is an empty
catalog. -/
def load (path : String) : Source → Except SetupError Catalog × List String
  | .absent => (.ok {}, [])
  | .unreadable => (.error .unreadable, [])
  | .file text =>
    match readFields text with
    | .error e => (.error (.unparsable e), [])
    | .ok fields =>
      ((ofFields fields).mapError fun m => .unparsable (.misfit m none), unknownNotices path fields)

/-- The file to read: the one asked for, or the one of the working directory when that is not
given or empty. -/
def locate (asked : Option String) : String :=
  match asked with
  | some path => if path = "" then "tundra.json" else path
  | none => "tundra.json"

def toJson (c : Catalog) : Json :=
  .object (Json.Fields.ofList
    [("warnings", .bool c.announce),
      ("connections", .object (c.connections.map fun (name, s) => (name, s.toJson))),
      ("default_client", .string c.defaultProtocol.text)])

/-! ### Settings to connect with -/

/-- Settings with a protocol and a full location, and the notices wanted. -/
def complete (c : Catalog) (s : Settings) : Settings × List String :=
  { s with protocol := some (s.protocol.getD c.defaultProtocol) }.applyDefaults c.announce

def connection (c : Catalog) (name : String) : Except SetupError (Settings × List String) :=
  match c.connections.lookup name with
  | some s => .ok (c.complete s)
  | none => .error (.unknownConnection name)

def fallback (c : Catalog) : Settings × List String := c.complete {}

end Catalog

end RecordClient
