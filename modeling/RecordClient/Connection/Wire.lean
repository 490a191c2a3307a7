import RecordClient.Wire.Http
import RecordClient.Wire.Socket
/-!
# The wire of a connection

A connection goes over either wire; settings say over which. What listens at the address is given
by a network.
-/
namespace RecordClient

inductive Wire where
  | http (w : Http.Wire)
  | socket (w : Socket.Wire)

inductive Server where
  | http (script : List Http.Response)
  | socket (script : List Socket.Response)

abbrev Network := String → Nat → Option Server

inductive Received where
  | http (r : Http.Request)
  /-- A request to go over to the socket protocol, by its path. -/
  | upgrade (path : String)
  | socket (m : Socket.Message)
  deriving DecidableEq, Repr

namespace Wire

def protocol : Wire → Protocol
  | .http _ => .http
  | .socket _ => .webSocket

def perform : Perform Wire
  | c, .http w => let (reply, w) := w.perform c; (reply, .http w)
  | c, .socket w => let (reply, w) := w.perform c; (reply, .socket w)

def received : Wire → List Received
  | .http w => w.received.map .http
  | .socket w => w.sent.map .socket

def script? : Option Server → Option (List Http.Response)
  | some (.http script) => some script
  | _ => none

def socketPath : String := "/rpc"

/-- Opens the wire that settings ask for, or says why there is none. What reached the other end on
the way comes along; a server that only speaks HTTP does not open a socket. -/
def connect (network : Network) (ids : Nat → String) (s : Settings) :
    Except Error Wire × List Received :=
  match s.effectiveProtocol with
  | .http =>
    (((Http.Client.ofSettings s).map fun client =>
      let server := network client.endpoint.host client.endpoint.port
      .http { client, server := script? server }).mapError .wire, [])
  | .webSocket =>
    match network s.effectiveHost s.effectivePort with
    | some (.socket peer) =>
      match Socket.Wire.handshake s { peer, ids } with
      | (.error e, w) => (.error e, w.sent.map .socket)
      | (.ok _, w) => (.ok (.socket w), w.sent.map .socket)
    | some (.http _) => (.error (.wire Socket.Fault.broken.error), [.upgrade socketPath])
    | none => (.error (.wire Socket.Fault.broken.error), [])

/-- Opens the wire for settings that belong to no catalog, and announces every gap in them. -/
def connectAnnounced (network : Network) (ids : Nat → String) (s : Settings) :
    (Except Error Wire × List Received) × List String :=
  let (s, notices) := s.applyDefaults true
  (connect network ids s, notices)

def shown (p : Protocol) : String :=
  "Connection \x7b kind: " ++ (match p with | .http => "Http" | .webSocket => "Websocket")
    ++ ", .. \x7d"

end Wire

end RecordClient
