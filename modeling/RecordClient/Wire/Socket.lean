import RecordClient.Connection.Call
import RecordClient.Settings.Basic
import RecordClient.Text.Utf8
import RecordClient.Wire.Envelope
import RecordClient.Wire.Rpc
/-!
# Calls over a socket

One socket carries all calls, one after the other. A request is written with an id of its own, and
events are read until one answers that id or ends the wait. What is read is used up, whatever
becomes of the call, so no event is seen by two calls. Either side may close the socket; the
handshake that does it is followed by `Phase`.
-/
namespace RecordClient.Socket

/-! ### Faults -/

inductive Fault where
  /-- The socket was closed before. -/
  | closed
  /-- Nothing came in time. -/
  | silence
  /-- The connection or the protocol was broken. -/
  | broken
  deriving DecidableEq, Repr

def Fault.error : Fault → WireError
  | closed => .closed
  | silence => .timeout
  | broken => .webSocket

/-! ### Events -/

inductive Event where
  | text (content : String)
  | binary (content : List UInt8)
  | ping
  | pong
  /-- The peer wants to close the socket. -/
  | close
  /-- Nothing came in time. -/
  | silence
  /-- A frame that breaks the protocol. -/
  | damage
  /-- There is nothing to read any more. -/
  | hangUp
  deriving DecidableEq, Repr

inductive Phase where
  | open
  /-- The peer asked to close, and nothing has been read since. -/
  | closedByPeer
  /-- Closing was asked for, and the peer has not agreed yet. -/
  | closedByUs
  /-- The peer agreed to close. -/
  | acknowledged
  /-- The connection is gone. -/
  | ended
  deriving DecidableEq, Repr

/-- What a text means to the request with an id: its reply, or nothing when it answers another. -/
def heard (id text : String) : Option Reply :=
  match Rpc.Answer.read text with
  | .error e => some (.error (.wire (.decode e)))
  | .ok answer => if answer.answers id then some (answer.outcome.mapError .query) else none

namespace Event

/-- What an event means to a waiting request; nothing to one that goes on waiting. -/
def reply? (id : String) : Event → Option Reply
  | text content => heard id content
  | binary content =>
    match Utf8.decode content with
    | .ok content => heard id content
    | .error fault => some (.error (.wire (.malformed (.notText fault))))
  | ping | pong => none
  | close => some (.error (.wire Fault.closed.error))
  | silence => some (.error (.wire Fault.silence.error))
  | damage | hangUp => some (.error (.wire Fault.broken.error))

def phase : Event → Phase
  | close => .closedByPeer
  | hangUp => .ended
  | _ => .open

end Event

/-- The reply to the request with an id on an open socket, the phase after it, and the events that
are left. -/
def await (id : String) : List Event → Reply × Phase × List Event
  | [] => (.error (.wire Fault.silence.error), .open, [])
  | e :: rest =>
    match e.reply? id with
    | some reply => (reply, e.phase, rest)
    | none => await id rest

def drain : Phase → List Event → Except Fault Unit × Phase × List Event
  | phase, [] => (.error .silence, phase, [])
  | phase, .silence :: rest => (.error .silence, phase, rest)
  | .closedByUs, .hangUp :: rest => (.error .broken, .ended, rest)
  | .closedByUs, .damage :: rest => (.error .broken, .closedByUs, rest)
  | .closedByUs, .close :: rest => drain .acknowledged rest
  | .closedByUs, _ :: rest => drain .closedByUs rest
  | _, .hangUp :: rest => (.ok (), .ended, rest)
  | phase, _ :: rest => (.error .broken, phase, rest)

/-! ### The wire -/

inductive Message where
  | request (r : Rpc.Request)
  | close
  deriving DecidableEq, Repr

/-- The events that a peer answers a message with, given the id of the message. -/
abbrev Response := String → List Event

/-- The answer of a peer that has nothing else to say: no result. -/
def emptyReply : Response := fun id =>
  [.text (Json.object [("id", .string id), ("result", .null)]).compact]

/-- One end of a socket and the peer at the other, whose answers are laid down in advance. -/
structure Wire where
  phase : Phase := .open
  inbox : List Event := []
  peer : List Response
  ids : Nat → String
  made : Nat := 0
  /-- Whether writing fails at once when the peer has gone. Where it does not, the message is lost
  unnoticed, and what the peer sent before it went is still read. -/
  noticesCut : Bool := true
  /-- The messages that were written, in order. -/
  sent : List Message := []

namespace Wire

/-- Whether the peer has gone, be it unnoticed. -/
def isCut (w : Wire) : Bool := w.inbox.contains .hangUp

/-- Writes a message, which the peer answers if it is there. -/
def deliver (w : Wire) (m : Message) (response : Response → List Event) : Wire :=
  let w := { w with sent := w.sent ++ [m] }
  if w.isCut then w
  else { w with inbox := w.inbox ++ response (w.peer.headD emptyReply), peer := w.peer.tail }

def refusesWrites (w : Wire) : Bool := w.isCut && w.noticesCut

/-- Why nothing can be written, if that is so. -/
def obstacle? (w : Wire) : Option Fault :=
  match w.phase with
  | .ended => some .closed
  | .open => if w.refusesWrites then some .broken else none
  | _ => some .broken

def call (w : Wire) (method : Rpc.Method) (params : List Json) : Reply × Wire :=
  let id := w.ids w.made
  let w := { w with made := w.made + 1 }
  match w.obstacle? with
  | some fault => (.error (.wire fault.error), w)
  | none =>
    let w := w.deliver (.request ⟨id, method, params⟩) (· id)
    let (reply, phase, inbox) := await id w.inbox
    (reply, { w with phase, inbox })

/-! ### Closing -/

/-- The events that follow when closing is asked for: the peer agrees and hangs up, unless it is
gone before. -/
def farewell (response : Response) : List Event :=
  let events := response ""
  if events.contains .hangUp then events
  else if events.contains .close then events ++ [.hangUp]
  else events ++ [.close, .hangUp]

def drained (w : Wire) : Reply × Wire :=
  let (result, phase, inbox) := drain w.phase w.inbox
  ((result.map fun _ => .null).mapError (.wire ·.error), { w with phase, inbox })

/-- Closes the socket. Closing one that is gone does nothing; to one that the peer closed it sends
the agreement, upon which the peer hangs up. -/
def close (w : Wire) : Reply × Wire :=
  match w.phase with
  | .ended => (.ok .null, w)
  | .open =>
    let w := { w with phase := .closedByUs }
    if w.refusesWrites then (.error (.wire Fault.broken.error), w)
    else (w.deliver .close farewell).drained
  | .closedByPeer => drained { w with inbox := w.inbox ++ [.hangUp] }
  | .closedByUs | .acknowledged => w.drained

/-! ### Calls -/

/-- A call with a target as its only parameter, which needs a table. -/
def callOn (w : Wire) (method : Rpc.Method) (target : RecordId) : Reply × Wire :=
  match target.requireTable with
  | .error e => (.error (.refusal e), w)
  | .ok _ => w.call method [.string target.raw]

def query (w : Wire) (text : String) : Reply × Wire :=
  let (reply, w) := w.call .query [.string text]
  (reply.bind Envelope.answer, w)

/-- The record that a target and a body name together, which needs a table. -/
def createTarget (target : RecordId) (body : Record) : Except Refusal RecordId := do
  let target ← RecordId.forRecord target.raw body
  let _ ← target.requireTable
  return target

/-- The record that a target and a body name together, which needs a table and an id. -/
def updateTarget (target : RecordId) (body : Record) : Except Refusal RecordId := do
  let target ← createTarget target body
  let _ ← target.requireId "update"
  return target

def confirmed (target : RecordId) (reply : Reply) : Reply := do
  let v ← reply
  if v.isEmpty then throw (.query (.unconfirmed target.raw)) else return v

def create (w : Wire) (target : RecordId) (body : Record) : Reply × Wire :=
  match createTarget target body with
  | .error e => (.error (.refusal e), w)
  | .ok target =>
    let (reply, w) := w.call .create [.string target.raw, body.toJson]
    (confirmed target reply, w)

def update (w : Wire) (target : RecordId) (body : Record) : Reply × Wire :=
  match updateTarget target body with
  | .error e => (.error (.refusal e), w)
  | .ok target => w.call .update [.string target.raw, body.toJson]

def acknowledged (w : Wire) (method : Rpc.Method) (params : List Json) : Reply × Wire :=
  let (reply, w) := w.call method params
  (reply.map fun _ => .null, w)

def use (w : Wire) (ns database : String) : Reply × Wire :=
  w.acknowledged .use [.string ns, .string database]

def perform : Perform Wire
  | .query text, w => w.query text
  | .select target, w => w.callOn .select target
  | .create target body, w => w.create target body
  | .update target body, w => w.update target body
  | .delete target, w => w.callOn .delete target
  | .use ns database, w => w.use ns database
  | .ping, w => w.acknowledged .ping []
  | .close, w => w.close

/-! ### Opening -/

def credentials (user : String) (password : Option String) : Json :=
  .object [("pass", .string (password.getD "")), ("user", .string user)]

/-- Chooses the scope of a fresh socket, then signs in if there is a user. A socket that does not
wait cannot be set up. -/
def handshake (s : Settings) (w : Wire) : Reply × Wire :=
  if s.effectiveTimeout = 0 then (.error (.wire .io), w)
  else
    match w.use s.effectiveNamespace s.effectiveDatabase with
    | (.error e, w) => (.error e, w)
    | (.ok v, w) =>
      match s.user with
      | none => (.ok v, w)
      | some user => w.acknowledged .signin [credentials user s.password]

end Wire

end RecordClient.Socket
