import RecordClient.Connection.Call
import RecordClient.Json.Reader
import RecordClient.Query.Builder
import RecordClient.Settings.Basic
import RecordClient.Text.Base64
import RecordClient.Text.Blank
import RecordClient.Wire.Envelope
import RecordClient.Wire.Endpoint
/-!
# Calls over HTTP

Every call is one request of its own, which names the scope and brings the credentials along.
Query text is posted to `/sql`; records are resources below `/key`. A body larger than the payload
limit of the client is written through query text instead.
-/
namespace RecordClient.Http

/-! ### Routes -/

inductive Method where
  | get
  | post
  | put
  | delete
  deriving DecidableEq, Repr

def Method.text : Method → String
  | .get => "GET"
  | .post => "POST"
  | .put => "PUT"
  | .delete => "DELETE"

inductive Body where
  | empty
  | text (content : String)
  | record (content : Record)
  deriving DecidableEq, Repr

/-- What is asked of which resource, which is the same for every client. -/
structure Route where
  method : Method
  segments : List String
  body : Body := .empty
  deriving DecidableEq, Repr

namespace Route

def query (text : String) : Route := ⟨.post, ["sql"], .text text⟩

def health : Route := { method := .get, segments := ["health"] }

def resource (target : RecordId) : Except Refusal (List String) := do
  let table ← target.requireTable
  return "key" :: table :: target.id.toList

def select (target : RecordId) : Except Refusal Route := do
  return { method := .get, segments := ← resource target }

def delete (target : RecordId) : Except Refusal Route := do
  return { method := .delete, segments := ← resource target }

/-- Whether a body is too large for its resource. -/
def isOversized (limit : Nat) (body : Record) : Bool := limit < body.toJson.size

/-- A write through query text. The id is left to the target: whatever its value, it is not in the
text of the body. -/
def ofWrite (w : ContentWrite) (target : RecordId) (body : Record) : Route :=
  query (w.text target (body.erase "id"))

/-- Creates the record that the target and the body name together. -/
def create (limit : Nat) (target : RecordId) (body : Record) : Except Refusal Route := do
  let target ← RecordId.forRecord target.raw body
  if isOversized limit body then return ofWrite .create target body
  else return ⟨.post, ← resource target, .record body⟩

/-- Replaces the record that the target and the body name together. -/
def update (limit : Nat) (target : RecordId) (body : Record) : Except Refusal Route := do
  let target ← RecordId.forRecord target.raw body
  let _ ← target.requireTable
  let _ ← target.requireId "update"
  if isOversized limit body then return ofWrite .update target body
  else return ⟨.put, ← resource target, .record body⟩

end Route

/-! ### Requests -/

structure Request where
  route : Route
  endpoint : Endpoint
  ns : String
  database : String
  user : Option Credentials
  deriving DecidableEq, Repr

namespace Request

/-- The path below the address of the client. -/
def path (r : Request) : String := Path.text (Path.ofSegments r.route.segments)

/-- What is asked for from the host: the whole path, and the query of the address. -/
def target (r : Request) : String :=
  Path.text (Path.extend r.endpoint.base r.route.segments)
    ++ (r.endpoint.query.map ("?" ++ ·)).getD ""

/-- Those of the address come first. -/
def credentials (r : Request) : List Credentials :=
  r.endpoint.credentials.toList ++ r.user.toList

def bodyText (r : Request) : String :=
  match r.route.body with
  | .empty => ""
  | .text content => content
  | .record content => content.toJson.compact

def isPadding (c : Char) : Bool := c = ' ' || c = '\t'

def headerValue (v : String) : String := String.ofList (Text.stripped isPadding v.toList)

def authorization (c : Credentials) : String :=
  "Basic " ++ String.ofList (Base64.encode (Utf8.encode (c.user ++ ":" ++ c.password)))

def headers (r : Request) : List (String × String) :=
  [("accept", "application/json"), ("ns", headerValue r.ns), ("db", headerValue r.database)]
    ++ r.credentials.map (fun c => ("authorization", authorization c))
    ++ match r.route.body with
      | .empty => []
      | .text _ => [("content-type", "text/plain")]
      | .record _ => [("content-type", "application/json")]

def isHeaderChar (c : Char) : Bool := c = '\t' || (' ' ≤ c && c ≠ '\x7f')

def isSendable (r : Request) : Bool :=
  r.ns.toList.all isHeaderChar && r.database.toList.all isHeaderChar

end Request

/-! ### Clients -/

/-- Where the requests of a client go, what it brings to every one of them, and its limits. -/
structure Client where
  endpoint : Endpoint
  user : Option String := none
  password : Option String := none
  ns : String
  database : String
  payloadLimit : Nat
  timeout : Nat
  deriving DecidableEq, Repr

namespace Client

def credentials (c : Client) : Option Credentials :=
  c.user.map fun user => ⟨user, c.password.getD ""⟩

def request (c : Client) (r : Route) : Request :=
  ⟨r, c.endpoint, c.ns, c.database, c.credentials⟩

/-- The client for some settings; nothing is sent, but the address has to be one. -/
def ofSettings (s : Settings) : Except WireError Client :=
  match Endpoint.read? s.effectiveHost s.effectivePort with
  | some endpoint =>
    .ok
      { endpoint
        user := s.user
        password := s.password
        ns := s.effectiveNamespace
        database := s.effectiveDatabase
        payloadLimit := s.effectivePayloadLimit
        timeout := s.effectiveTimeout }
  | none => .error (.endpoint (Endpoint.address s.effectiveHost s.effectivePort))

end Client

/-! ### Exchanges -/

/-- What comes back for a request in the end. If a server redirects it, the client follows on its
own, and this is what the last one answers. -/
inductive Response where
  | reply (status : Nat) (body : String)
  | truncated (status : Nat)
  | dropped
  deriving DecidableEq, Repr

def isSuccess (status : Nat) : Bool := 200 ≤ status && status < 300

def isBodiless (status : Nat) : Bool := status = 204 || status = 304

namespace Response

def status : Response → Except WireError Nat
  | .reply status _ | .truncated status => .ok status
  | .dropped => .error .http

def body : Response → Except WireError String
  | .reply status body => .ok (if isBodiless status then "" else body)
  | .truncated status => if isBodiless status then .ok "" else .error .http
  | .dropped => .error .http

/-- The answer to a ping, which only looks at the body of a failure. -/
def acknowledge (r : Response) : Except WireError Unit := do
  let status ← r.status
  if isSuccess status then return () else throw (.status status (← r.body))

def answer (r : Response) : Reply :=
  let text : Except WireError String := do
    let status ← r.status
    let body ← r.body
    if isSuccess status then return body else throw (.status status body)
  match text with
  | .error e => .error (.wire e)
  | .ok body =>
    match Json.read body with
    | .error e => .error (.wire (.decode e))
    | .ok v => Envelope.answer v

end Response

/-- A client and the server at the other end, whose answers are laid down in advance; none if
nothing listens there. -/
structure Wire where
  client : Client
  server : Option (List Response)
  /-- The requests that reached the server, in order; those that follow a redirect are no requests
  of their own. -/
  received : List Request := []
  deriving Repr

namespace Wire

/-- The answer of a server that has nothing else to say: no statement results. -/
def emptyReply : Response := .reply 200 "[]"

/-- Sends a request. One that cannot be written does not leave the client; a client that does not
wait gets no answer. -/
def send (w : Wire) (r : Route) : Except WireError Response × Wire :=
  let request := w.client.request r
  if !request.isSendable then (.error .http, w)
  else if w.client.timeout = 0 then (.error .timeout, w)
  else match w.server with
    | none => (.error .http, w)
    | some script =>
      (.ok (script.headD emptyReply),
        { w with server := some script.tail, received := w.received ++ [request] })

def exchange (w : Wire) (r : Route) : Reply × Wire :=
  match w.send r with
  | (.error e, w) => (.error (.wire e), w)
  | (.ok response, w) => (response.answer, w)

def exchangeIf (w : Wire) : Except Refusal Route → Reply × Wire
  | .error e => (.error (.refusal e), w)
  | .ok r => w.exchange r

def ping (w : Wire) : Reply × Wire :=
  match w.send .health with
  | (.error e, w) => (.error (.wire e), w)
  | (.ok response, w) => ((response.acknowledge.map fun _ => .null).mapError .wire, w)

/-- Makes a call. Choosing a scope only changes what later requests bring along, and there is
nothing to close. -/
def perform : Perform Wire
  | .query text, w => w.exchange (.query text)
  | .select target, w => w.exchangeIf (Route.select target)
  | .create target body, w => w.exchangeIf (Route.create w.client.payloadLimit target body)
  | .update target body, w => w.exchangeIf (Route.update w.client.payloadLimit target body)
  | .delete target, w => w.exchangeIf (Route.delete target)
  | .use ns database, w => (.ok .null, { w with client := { w.client with ns, database } })
  | .ping, w => w.ping
  | .close, w => (.ok .null, w)

end Wire

end RecordClient.Http
