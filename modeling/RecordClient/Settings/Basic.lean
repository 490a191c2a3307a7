import RecordClient.Json.Shape
/-!
# Connection settings

How to reach one database. The location (host, port, namespace and database) falls back to local
defaults, and each fallback can be announced.
-/
namespace RecordClient

inductive Protocol where
  | http
  | webSocket
  deriving DecidableEq, Repr

namespace Protocol

def default : Protocol := .webSocket

def text : Protocol → String
  | .http => "http"
  | .webSocket => "websocket"

def names : List String := ["http", "https", "socket", "websocket", "ws", "wss"]

def ofName? (name : String) : Option Protocol :=
  if name = "http" || name = "https" then some .http
  else if names.contains name then some .webSocket
  else none

def ofName (name : String) : Except Json.Misfit Protocol :=
  match ofName? name with
  | some p => .ok p
  | none => .error (.unknownVariant name names)

/-- A protocol is its name, or an object with the name as its only key and null behind it. -/
def ofJson : Json → Except Json.Misfit Protocol
  | .string name => ofName name
  | .object [(name, v)] => do
    let p ← ofName name
    if v = .null then return p else Json.wrongType v "unit"
  | .object _ => .error (.outOfRange .object "map with a single key")
  | v => Json.wrongType v "string or map"

end Protocol

structure Settings where
  host : Option String := none
  port : Option Nat := none
  user : Option String := none
  password : Option String := none
  ns : Option String := none
  database : Option String := none
  protocol : Option Protocol := none
  payloadLimit : Option Nat := none
  timeout : Option Nat := none
  deriving DecidableEq, Repr

namespace Settings

def defaultHost : String := "localhost"
def defaultPort : Nat := 8000
def defaultNamespace : String := "default"
def defaultDatabase : String := "default"
def defaultPayloadLimit : Nat := 1000000
def defaultTimeout : Nat := 30

/-! ### Effective values -/

def effectiveHost (s : Settings) : String := s.host.getD defaultHost
def effectivePort (s : Settings) : Nat := s.port.getD defaultPort
def effectiveNamespace (s : Settings) : String := s.ns.getD defaultNamespace
def effectiveDatabase (s : Settings) : String := s.database.getD defaultDatabase
def effectiveProtocol (s : Settings) : Protocol := s.protocol.getD .default
def effectivePayloadLimit (s : Settings) : Nat := s.payloadLimit.getD defaultPayloadLimit

def effectiveTimeout (s : Settings) : Nat := s.timeout.getD defaultTimeout

/-! ### Defaults -/

def located (s : Settings) : Settings :=
  { s with
    host := s.host.or (some defaultHost)
    port := s.port.or (some defaultPort)
    ns := s.ns.or (some defaultNamespace)
    database := s.database.or (some defaultDatabase) }

def notice (field value : String) : String :=
  "no " ++ field ++ " specified, using " ++ value

def gapNotices (s : Settings) : List String :=
  (if s.host.isNone then [notice "host" defaultHost] else [])
    ++ (if s.port.isNone then [notice "port" defaultPort.repr] else [])
    ++ (if s.ns.isNone then [notice "namespace" defaultNamespace] else [])
    ++ (if s.database.isNone then [notice "database" defaultDatabase] else [])

/-- Fills the gaps of the location; the notices come along if they are wanted. -/
def applyDefaults (announce : Bool) (s : Settings) : Settings × List String :=
  (s.located, if announce then s.gapNotices else [])

/-! ### Reading -/

def fieldNames : List String :=
  ["host", "port", "user", "password", "namespace", "database", "transport", "max_payload_bytes",
    "timeout_secs"]

def setField (s : Settings) (field : String) (v : Json) : Except Json.Misfit Settings := do
  let text := Json.asOption Json.asString v
  let natural (bits : Nat) (expected : String) :=
    Json.asOption (Json.asNatural (Nat.pow 2 bits - 1) expected) v
  match field with
  | "host" => return { s with host := ← text }
  | "port" => return { s with port := ← natural 16 "u16" }
  | "user" => return { s with user := ← text }
  | "password" => return { s with password := ← text }
  | "namespace" => return { s with ns := ← text }
  | "database" => return { s with database := ← text }
  | "transport" => return { s with protocol := ← Json.asOption Protocol.ofJson v }
  | "max_payload_bytes" => return { s with payloadLimit := ← natural 64 "usize" }
  | "timeout_secs" => return { s with timeout := ← natural 64 "u64" }
  | _ => return s

def ofJson (v : Json) : Except Json.Misfit Settings :=
  Json.asStructure fieldNames "struct TransportConfig" {} setField v

def toJson (s : Settings) : Json :=
  let text (t : Option String) : Json := t.elim .null .string
  let natural (n : Option Nat) : Json := n.elim .null .ofNat
  .object (Json.Fields.ofList
    [("host", text s.host), ("port", natural s.port), ("user", text s.user),
      ("password", text s.password), ("namespace", text s.ns), ("database", text s.database),
      ("transport", text (s.protocol.map Protocol.text)),
      ("max_payload_bytes", natural s.payloadLimit), ("timeout_secs", natural s.timeout)])

end Settings

end RecordClient
