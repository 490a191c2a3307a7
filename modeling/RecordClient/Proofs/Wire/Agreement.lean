import RecordClient.Proofs.Json.Nesting
import RecordClient.Proofs.Wire.Address
import RecordClient.Proofs.Wire.Session
/-!
# What both wires have in common

Calls about records are checked in the same way, name the same record and bring the same body over
either wire, and the same result makes the same reply as far as its text can be read. `wires_agree`
is the main statement. Both wires read with the same limit on how deep a text may nest, but wrap the
same result up differently, so near the limit one of them can fail (`deep_result_divides_wires`).
-/
namespace RecordClient

inductive RecordCall where
  | select
  | create
  | update
  | delete
  deriving DecidableEq, Repr

namespace RecordCall

def call (target : RecordId) (body : Record) : RecordCall → Call
  | select => .select target
  | create => .create target body
  | update => .update target body
  | delete => .delete target

def httpMethod : RecordCall → Http.Method
  | select => .get
  | create => .post
  | update => .put
  | delete => .delete

def rpcMethod : RecordCall → Rpc.Method
  | select => .select
  | create => .create
  | update => .update
  | delete => .delete

def isWrite : RecordCall → Bool
  | create | update => true
  | select | delete => false

/-- What a call asks of the record that it is about: a table, and an id for an update. -/
def demand (c : RecordCall) (named : RecordId) : Except Refusal RecordId :=
  match named.table, named.id, c with
  | none, _, _ => .error .missingTable
  | some _, none, update => .error (.missingId "update")
  | _, _, _ => .ok named

/-- The record that target and body name together, or why the call is refused. -/
def resolve (c : RecordCall) (target : RecordId) (body : Record) : Except Refusal RecordId :=
  Http.subject (c.call target body) >>= c.demand

theorem demand_of_ne {c : RecordCall} (other : c ≠ update) (named : RecordId) :
    c.demand named = named.requireTable.map fun _ => named := by
  cases c with
  | update => exact absurd rfl other
  | select | create | delete => obtain ⟨_ | table, _ | id⟩ := named <;> rfl

def content? (c : RecordCall) (body : Record) : Option Record :=
  if c.isWrite then some body else none

def route (c : RecordCall) (named : RecordId) (body : Record) : Http.Route :=
  ⟨c.httpMethod, named.segments, (c.content? body).elim .empty .record⟩

def params (c : RecordCall) (named : RecordId) (body : Record) : List Json :=
  .string named.raw :: ((c.content? body).map Record.toJson).toList

/-- What becomes of a reply over a socket, where a record that was created has to come back. -/
def settled (c : RecordCall) (named : RecordId) (reply : Reply) : Reply :=
  if c = create then Socket.Wire.confirmed named reply else reply

end RecordCall

/-! ### Over HTTP -/

namespace Http

theorem resource_eq (r : RecordId) : Route.resource r = r.requireTable.map fun _ => r.segments := by
  unfold Route.resource RecordId.requireTable RecordId.segments
  cases r.table <;> rfl

theorem resource_route {c : RecordCall} (other : c ≠ .update) (named : RecordId) (body : Record) :
    (do return ⟨c.httpMethod, ← Route.resource named, (c.content? body).elim .empty .record⟩ :
      Except Refusal Route) = (c.demand named).map fun named => c.route named body := by
  rw [resource_eq, RecordCall.demand_of_ne other]
  cases named.requireTable <;> rfl

theorem create_route {limit : Nat} {body : Record} (fits : Route.isOversized limit body = false)
    (target : RecordId) : Route.create limit target body =
      (RecordCall.create.resolve target body).map fun named =>
        RecordCall.create.route named body := by
  unfold Route.create RecordCall.resolve
  rw [fits]
  show _ = (RecordId.forRecord target.raw body >>= _).map _
  cases RecordId.forRecord target.raw body with
  | error e => rfl
  | ok named => exact resource_route (c := .create) (by decide) named body

theorem update_route {limit : Nat} {body : Record} (fits : Route.isOversized limit body = false)
    (target : RecordId) : Route.update limit target body =
      (RecordCall.update.resolve target body).map fun named =>
        RecordCall.update.route named body := by
  unfold Route.update RecordCall.resolve
  rw [fits]
  show _ = (RecordId.forRecord target.raw body >>= _).map _
  cases RecordId.forRecord target.raw body with
  | error e => rfl
  | ok named =>
    obtain ⟨_ | table, _ | id⟩ := named
    all_goals rfl

/-- Over HTTP, a call about a record is one exchange, over the route to the resolved record. -/
theorem perform_recordCall (w : Wire) (c : RecordCall) (target : RecordId) {body : Record}
    (small : body.toJson.size ≤ w.client.payloadLimit) :
    w.perform (c.call target body) =
      w.exchangeIf ((c.resolve target body).map fun named => c.route named body) := by
  have fits : Route.isOversized w.client.payloadLimit body = false :=
    decide_eq_false (Nat.not_lt.mpr small)
  cases c with
  | select => exact congrArg w.exchangeIf (resource_route (c := .select) (by decide) target body)
  | create => exact congrArg w.exchangeIf (create_route fits target)
  | update => exact congrArg w.exchangeIf (update_route fits target)
  | delete => exact congrArg w.exchangeIf (resource_route (c := .delete) (by decide) target body)

namespace Wire

/-- The next answer is a success with a text as its body. -/
def Brings (w : Wire) (text : String) : Prop :=
  w.reaches = true ∧ ∃ response status, w.server.map (·.headD emptyReply) = some response ∧
    response.status = .ok status ∧ isSuccess status = true ∧ response.body = .ok text

theorem received_exchange_eq (w : Wire) (r : Route) :
    (w.exchange r).2.received =
      w.received ++ if w.reaches then [w.client.request r] else [] := by
  rw [received_exchange]
  rcases send_cases w r with ⟨lost, -, same⟩ | ⟨_, arrives, -, -, sent⟩
  · rw [same, lost]
    simp
  · rw [sent, arrives]
    rfl

/-- The reply that a text makes as the body of a success. -/
def reply (text : String) : Reply :=
  match Json.read text with
  | .error e => .error (.wire (.decode e))
  | .ok v => Envelope.answer v

theorem answer_of_success {r : Response} {status : Nat} {text : String}
    (code : r.status = .ok status) (success : isSuccess status = true)
    (body : r.body = .ok text) : r.answer = reply text := by
  simp only [Response.answer, code, body, success, bind, Except.bind, if_true, pure, Except.pure]
  rfl

theorem exchange_of_brings {w : Wire} {text : String} (h : w.Brings text) (r : Route) :
    (w.exchange r).1 = reply text := by
  obtain ⟨arrives, response, status, next, code, success, body⟩ := h
  rcases send_cases w r with ⟨lost, -, -⟩ | ⟨_, -, given, sent, -⟩
  · rw [arrives] at lost
    cases lost
  cases next.symm.trans given
  have answered : (w.exchange r).1 = response.answer := by
    unfold exchange
    split
    · next e _ failed => rw [failed] at sent; cases sent
    · next own _ fine => rw [fine] at sent; cases sent; rfl
  rw [answered]
  exact answer_of_success code success body

end Wire

end Http

/-! ### Over a socket -/

namespace Socket

/-- The text that a frame holds. -/
def Event.content? : Event → Option String
  | text content => some content
  | binary content => (Utf8.decode content).toOption
  | _ => none

theorem Event.reply?_of_content {e : Event} {text : String} (holds : e.content? = some text)
    (id : String) : e.reply? id = heard id text := by
  cases e with
  | text content =>
    cases holds
    rfl
  | binary content =>
    dsimp only [content?, reply?] at holds ⊢
    cases read : Utf8.decode content with
    | error fault =>
      rw [read] at holds
      cases holds
    | ok own =>
      rw [read] at holds
      cases holds
      rfl
  | ping | pong | close | silence | damage | hangUp => cases holds

theorem callOn_eq (w : Wire) {c : RecordCall} (other : c ≠ .update) (named : RecordId)
    (method : Rpc.Method) :
    w.callOn method named = match c.demand named with
      | .error e => (.error (.refusal e), w)
      | .ok named => w.call method [.string named.raw] := by
  rw [RecordCall.demand_of_ne other]
  unfold Wire.callOn
  cases named.requireTable <;> rfl

theorem createTarget_eq (target : RecordId) (body : Record) :
    Wire.createTarget target body = RecordCall.create.resolve target body := by
  unfold Wire.createTarget RecordCall.resolve
  show _ = RecordId.forRecord target.raw body >>= _
  congr 1
  funext named
  rw [RecordCall.demand_of_ne (by decide)]
  cases named.requireTable <;> rfl

theorem updateTarget_eq (target : RecordId) (body : Record) :
    Wire.updateTarget target body = RecordCall.update.resolve target body := by
  unfold Wire.updateTarget Wire.createTarget RecordCall.resolve
  show _ = RecordId.forRecord target.raw body >>= _
  rw [bind_assoc]
  congr 1
  funext named
  obtain ⟨_ | table, _ | id⟩ := named
  all_goals rfl

/-- Over a socket, a call about a record is one request, which names the resolved record. -/
theorem perform_recordCall (w : Wire) (c : RecordCall) (target : RecordId) (body : Record) :
    w.perform (c.call target body) = match c.resolve target body with
      | .error e => (.error (.refusal e), w)
      | .ok named =>
        (c.settled named (w.call c.rpcMethod (c.params named body)).1,
          (w.call c.rpcMethod (c.params named body)).2) := by
  cases c with
  | select => exact callOn_eq w (c := .select) (by decide) target .select
  | create =>
    rw [← createTarget_eq]
    show w.create target body = _
    unfold Wire.create
    cases Wire.createTarget target body <;> rfl
  | update =>
    rw [← updateTarget_eq]
    show w.update target body = _
    unfold Wire.update
    cases Wire.updateTarget target body <;> rfl
  | delete => exact callOn_eq w (c := .delete) (by decide) target .delete

namespace Wire

/-- The next request can be written, and the first frame that it does not pass over holds a
text. -/
def Brings (w : Wire) (text : String) : Prop :=
  w.obstacle? = none ∧ ∃ skipped e rest, w.waiting = skipped ++ e :: rest ∧
    (∀ s ∈ skipped, s.Skipped w.nextId) ∧ e.content? = some text

theorem call_of_brings {w : Wire} {text : String} (h : w.Brings text) {reply : Reply}
    (hears : heard w.nextId text = some reply) (method : Rpc.Method) (params : List Json) :
    (w.call method params).1 = reply := by
  obtain ⟨free, skipped, e, rest, split, before, holds⟩ := h
  have ends : e.reply? w.nextId = some reply := (Event.reply?_of_content holds _).trans hears
  rw [(call_written free method params).1, split, await_skipped before, await, ends]

theorem confirmed_ok (target : RecordId) (v : Json) :
    confirmed target (.ok v) =
      if v.isEmpty then .error (.query (.unconfirmed target.raw)) else .ok v := rfl

theorem sent_call (w : Wire) (method : Rpc.Method) (params : List Json) :
    (w.call method params).2.sent =
      w.sent ++ if w.obstacle?.isNone then [.request ⟨w.nextId, method, params⟩] else [] := by
  cases h : w.obstacle? with
  | none => exact (call_written h method params).2.2
  | some fault =>
    rw [call_blocked h]
    exact (List.append_nil _).symm

end Wire

end Socket

/-! ### Agreement -/

/-- Either wire sends one request, unless it cannot send any: both name the same record, by its
segments or its token, and bring the same body. -/
structure SameRequest (c : RecordCall) (h : Http.Wire) (k : Socket.Wire) (target named : RecordId)
    (body : Record) : Prop where
  http : (h.perform (c.call target body)).2.received =
    h.received ++ if h.reaches then [h.client.request (c.route named body)] else []
  socket : (k.perform (c.call target body)).2.sent =
    k.sent ++ if k.obstacle?.isNone then
      [.request ⟨k.nextId, c.rpcMethod, c.params named body⟩] else []

theorem sameRequest {c : RecordCall} {h : Http.Wire} {target named : RecordId} {body : Record}
    (small : body.toJson.size ≤ h.client.payloadLimit)
    (resolved : c.resolve target body = .ok named) (k : Socket.Wire) :
    SameRequest c h k target named body where
  http := by
    rw [Http.perform_recordCall h c target small, resolved]
    exact Http.Wire.received_exchange_eq h _
  socket := by
    rw [Socket.perform_recordCall, resolved]
    exact Socket.Wire.sent_call k _ _

/-- The body of a success with one result. -/
def Envelope.Holds (v body : Json) : Prop :=
  ∃ item e, body = .array [item] ∧ Envelope.ofJson item = .ok e ∧ e.isOk = true ∧ e.result = v

theorem Envelope.Holds.answer_eq {v body : Json} (h : Envelope.Holds v body) :
    Envelope.answer body = .ok v := by
  obtain ⟨item, e, rfl, read, ok, rfl⟩ := h
  have single : Envelope.listOfJson (.array [item]) = .ok [e] := by
    simp only [listOfJson, List.mapM_cons, List.mapM_nil, read]
    rfl
  unfold answer
  rw [single]
  simp [unwrap, ok, resultOf, Except.mapError]

/-- An answer to a request brings a result and reports no failure. -/
structure Rpc.Answer.Gives (a : Answer) (id : String) (v : Json) : Prop where
  own : a.id = some (.string id)
  fine : a.failure = none
  result : a.result.getD .null = v

/-! ### Replies

What a text makes of a result depends on whether it can be read. -/

/-- How deep the body of an answer over HTTP may nest. -/
def Http.NestsWithinLimit (text : String) : Prop := Json.textDepth text ≤ 127

/-- How deep the parts of an answer over a socket may nest, which its reader looks at; the answer is
a level of its own. -/
def Socket.NestsWithinLimit (text : String) : Prop :=
  Json.NestsWithin Rpc.Answer.reader 126 text

/-- Only what the reader of an answer passes over may nest deeper than the body over HTTP. -/
theorem Socket.nestsWithinLimit_of_le {text : String} {a : Rpc.Answer}
    (spelled : Json.Spells Rpc.Answer.reader text a) (flat : Json.textDepth text ≤ 127) :
    Socket.NestsWithinLimit text :=
  spelled.nestsWithin_answer flat

/-- A reply is the one expected if its text is readable, and else says that it nests too deep. -/
structure Settled (readable : Prop) (expected reply : Reply) : Prop where
  read : readable → reply = expected
  deep : ¬ readable → ∃ place, reply = .error (.wire (.decode (.flaw .tooDeep place)))

theorem Http.reply_settled {text : String} {v : Json}
    (spelled : Json.Spells Json.Reader.value text v) :
    Settled (Http.NestsWithinLimit text) (Envelope.answer v) (Wire.reply text) := by
  have limit : Json.NestsWithin Json.Reader.value Json.greatestDepth text ↔
      Http.NestsWithinLimit text := spelled.nestsWithin_value_iff Json.greatestDepth
  rcases spelled.read_or_deep Json.graded_value Json.greatestDepth with
    ⟨within, read⟩ | ⟨deep, place, refused⟩
  · refine ⟨fun _ => ?_, (absurd (limit.mp within) ·)⟩
    rw [Wire.reply, Json.read, read]
  · refine ⟨(absurd · (mt limit.mpr deep)), fun _ => ⟨place, ?_⟩⟩
    rw [Wire.reply, Json.read, refused]

theorem Socket.call_settled {w : Wire} {text : String} {a : Rpc.Answer} {v : Json}
    (brings : w.Brings text) (spelled : Json.Spells Rpc.Answer.reader text a)
    (gives : a.Gives w.nextId v) (method : Rpc.Method) (params : List Json) :
    Settled (Socket.NestsWithinLimit text) (.ok v) (w.call method params).1 := by
  rcases spelled.read_or_deep Json.graded_answer (Json.greatestDepth - 1) with
    ⟨within, read⟩ | ⟨deep, place, refused⟩
  · have hears : heard w.nextId text = some (.ok v) := by
      have value : a.outcome = .ok v := outcome_eq_ok_iff.mpr ⟨gives.fine, gives.result⟩
      rw [heard, Rpc.Answer.read, read]
      simp [Rpc.Answer.answers, gives.own, value, Except.mapError]
    exact ⟨fun _ => Wire.call_of_brings brings hears method params, (absurd within ·)⟩
  · have hears : heard w.nextId text = some (.error (.wire (.decode (.flaw .tooDeep place)))) := by
      rw [heard, Rpc.Answer.read, refused]
    exact ⟨(absurd · deep), fun _ => ⟨place, Wire.call_of_brings brings hears method params⟩⟩

/-- What follows a failure to read does not see the reply. -/
theorem Settled.through {readable : Prop} {expected reply : Reply}
    (settled : Settled readable expected reply) (next : Reply → Reply)
    (strict : ∀ e, next (.error e) = .error e) : Settled readable (next expected) (next reply) where
  read within := congrArg next (settled.read within)
  deep far := by
    obtain ⟨place, same⟩ := settled.deep far
    exact ⟨place, by rw [same, strict]⟩

theorem RecordCall.settled_strict (c : RecordCall) (named : RecordId) (e : Error) :
    c.settled named (.error e) = .error e := by
  unfold RecordCall.settled
  split <;> rfl

theorem RecordCall.settled_ok (c : RecordCall) (named : RecordId) (v : Json) :
    c.settled named (.ok v) =
      if c = create ∧ v.isEmpty then .error (.query (.unconfirmed named.raw)) else .ok v := by
  unfold RecordCall.settled
  by_cases created : c = create
  · rw [if_pos created, Socket.Wire.confirmed_ok]
    simp only [created, true_and]
  · simp only [created, false_and, if_false]

/-- Calls about records are refused over both wires for the same reason, with nothing sent, or sent
over both for the same record. The same result is the same reply, but for a record that was to be
created and did not come back over a socket; and the same answer to query text is the same reply.
Over either wire, a text that nests too deep makes a reply that says so instead; no answer over a
socket does at a depth that the body of one over HTTP may have. -/
theorem wires_agree (h : Http.Wire) (k : Socket.Wire) :
    (∀ (c : RecordCall) (target : RecordId) (body : Record),
      body.toJson.size ≤ h.client.payloadLimit →
      (∀ e, c.resolve target body = .error e →
        h.perform (c.call target body) = (.error (.refusal e), h) ∧
          k.perform (c.call target body) = (.error (.refusal e), k)) ∧
      ∀ named, c.resolve target body = .ok named →
        SameRequest c h k target named body ∧
        ∀ v answer a text frame, Envelope.Holds v answer → a.Gives k.nextId v →
          Json.Spells Json.Reader.value text answer → Json.Spells Rpc.Answer.reader frame a →
          h.Brings text → k.Brings frame →
          Settled (Http.NestsWithinLimit text) (.ok v) (h.perform (c.call target body)).1 ∧
          Settled (Socket.NestsWithinLimit frame)
            (if c = .create ∧ v.isEmpty then .error (.query (.unconfirmed named.raw)) else .ok v)
            (k.perform (c.call target body)).1) ∧
    (∀ query answer a text frame, a.Gives k.nextId answer →
      Json.Spells Json.Reader.value text answer → Json.Spells Rpc.Answer.reader frame a →
      h.Brings text → k.Brings frame →
      Settled (Http.NestsWithinLimit text) (Envelope.answer answer) (h.perform (.query query)).1 ∧
      Settled (Socket.NestsWithinLimit frame) (Envelope.answer answer)
        (k.perform (.query query)).1) ∧
    ∀ (a : Rpc.Answer) (frame : String), Json.Spells Rpc.Answer.reader frame a →
      Http.NestsWithinLimit frame → Socket.NestsWithinLimit frame := by
  refine ⟨fun c target body small => ⟨fun e refused => ?_, fun named resolved => ?_⟩, ?_,
    fun _ _ => Socket.nestsWithinLimit_of_le⟩
  · rw [Http.perform_recordCall h c target small, Socket.perform_recordCall, refused]
    exact ⟨rfl, rfl⟩
  · refine ⟨sameRequest small resolved k, ?_⟩
    intro v answer a text frame single gives spelled framed overHttp overSocket
    rw [Http.perform_recordCall h c target small, Socket.perform_recordCall, resolved]
    constructor
    · have asked := Http.Wire.exchange_of_brings overHttp (c.route named body)
      have settled := Http.reply_settled spelled
      rw [single.answer_eq, ← asked] at settled
      exact settled
    · rw [← RecordCall.settled_ok]
      exact (Socket.call_settled overSocket framed gives _ _).through (c.settled named)
        (c.settled_strict named)
  · intro query answer a text frame gives spelled framed overHttp overSocket
    constructor
    · have asked := Http.Wire.exchange_of_brings overHttp (.query query)
      have settled := Http.reply_settled spelled
      rw [← asked] at settled
      exact settled
    · exact (Socket.call_settled overSocket framed gives .query [.string query]).through
        (·.bind Envelope.answer) fun _ => rfl

/-! ### Samples -/

/-- The body of a success with one result. -/
def bodyText (result : List Char) : List Char :=
  "[\x7b\"status\":\"OK\",\"result\":".toList ++ result ++ "\x7d]".toList

def bodyOf (v : Json) : Json := .array [.object [("result", v), ("status", .string "OK")]]

theorem bodyOf_holds (v : Json) : Envelope.Holds v (bodyOf v) :=
  ⟨_, { status := "OK", result := v }, rfl, rfl, rfl, rfl⟩

/-- An answer to the first request of a session. -/
def frameText (result : List Char) : List Char :=
  "\x7b\"id\":\"0\",\"result\":".toList ++ result ++ ['\x7d']

def frameOf (v : Option Json) : Rpc.Answer := { id := some (.string "0"), result := v }

theorem frameOf_gives (v : Option Json) : (frameOf v).Gives "0" (v.getD .null) := ⟨rfl, rfl, rfl⟩

theorem readWhole_ofList {α : Type} (reader : (cs : List Char) → Json.Reader.Result cs α)
    (cs : List Char) : Json.readWhole reader (String.ofList cs) = Json.readAll reader cs := by
  rw [Json.readWhole, String.toList_ofList]

def serverWith (text : List Char) : Http.Wire :=
  { Http.sampleWire with server := some [.reply 200 (String.ofList text)] }

theorem serverWith_brings (text : List Char) : (serverWith text).Brings (String.ofList text) :=
  ⟨show Http.sampleWire.reaches = true by decide, _, 200, rfl, rfl, rfl, rfl⟩

def peerWith (text : List Char) : Socket.Wire :=
  { peer := [fun _ => [.text (String.ofList text)]], ids := fun _ => "0" }

theorem peerWith_brings (text : List Char) : (peerWith text).Brings (String.ofList text) :=
  ⟨rfl, [], _, [], rfl, by simp, rfl⟩

theorem serverWith_select (text : List Char) :
    ((serverWith text).perform (.select { table := some "t" })).1 =
      Http.Wire.reply (String.ofList text) :=
  Http.Wire.exchange_of_brings (serverWith_brings text) _

theorem serverWith_query (text : List Char) :
    ((serverWith text).perform (.query "q")).1 = Http.Wire.reply (String.ofList text) :=
  Http.Wire.exchange_of_brings (serverWith_brings text) _

theorem nextId_peerWith (text : List Char) : (peerWith text).nextId = "0" := rfl

theorem peerWith_select {text : List Char} {reply : Reply}
    (hears : Socket.heard "0" (String.ofList text) = some reply) :
    ((peerWith text).perform (.select { table := some "t" })).1 = reply := by
  rw [← nextId_peerWith text] at hears
  exact Socket.Wire.call_of_brings (peerWith_brings text) hears _ _

theorem peerWith_query {text : List Char} {reply : Reply}
    (hears : Socket.heard "0" (String.ofList text) = some reply) :
    ((peerWith text).perform (.query "q")).1 = reply.bind Envelope.answer := by
  rw [← nextId_peerWith text] at hears
  exact congrArg (·.bind Envelope.answer)
    (Socket.Wire.call_of_brings (peerWith_brings text) hears .query [.string "q"])

def sampleBody : Record := ⟨[("id", .ofNat 1)]⟩

def sampleResult : List Char := "null".toList

/-- A creation that is answered with null is a failure over a socket, and query text is not. -/
theorem wires_agree_at_sample :
    sampleBody.toJson.size ≤ (serverWith (bodyText sampleResult)).client.payloadLimit ∧
      ((serverWith (bodyText sampleResult)).perform
        (.create { table := some "t" } sampleBody)).1 = .ok .null ∧
      ((peerWith (frameText sampleResult)).perform
        (.create { table := some "t" } sampleBody)).1 = .error (.query (.unconfirmed "t:1")) ∧
      ((serverWith (bodyText sampleResult)).perform (.query "q")).1 = .ok .null ∧
      ((peerWith (frameText (bodyText sampleResult))).perform (.query "q")).1 = .ok .null := by
  have small : sampleBody.toJson.size ≤ (serverWith (bodyText sampleResult)).client.payloadLimit :=
    by decide +kernel
  have resolved : RecordCall.create.resolve { table := some "t" } sampleBody =
      .ok { table := some "t", id := some "1" } := by decide +kernel
  have text : Json.readWhole (Json.Reader.value 127) (String.ofList (bodyText sampleResult)) =
      .ok (bodyOf .null) := by
    rw [readWhole_ofList]
    decide +kernel
  have nothing : Json.readWhole (Rpc.Answer.reader 126) (String.ofList (frameText sampleResult)) =
      .ok (frameOf none) := by
    rw [readWhole_ofList]
    decide +kernel
  have whole : Json.readWhole (Rpc.Answer.reader 126)
      (String.ofList (frameText (bodyText sampleResult))) =
        .ok (frameOf (some (bodyOf .null))) := by
    rw [readWhole_ofList]
    decide +kernel
  have records := ((wires_agree (serverWith (bodyText sampleResult))
    (peerWith (frameText sampleResult))).1 .create { table := some "t" } _ small).2 _ resolved
  have created := records.2 .null (bodyOf .null) (frameOf none) _ _ (bodyOf_holds _)
    (frameOf_gives _) ⟨_, text⟩ ⟨_, nothing⟩ (serverWith_brings _) (peerWith_brings _)
  have asked := (wires_agree (serverWith (bodyText sampleResult))
    (peerWith (frameText (bodyText sampleResult)))).2
  have answered := asked.1 "q" (bodyOf .null) _ _ _ (frameOf_gives _) ⟨_, text⟩ ⟨_, whole⟩
    (serverWith_brings _) (peerWith_brings _)
  have flat : Http.NestsWithinLimit (String.ofList (bodyText sampleResult)) :=
    (Json.Spells.nestsWithin_value_iff ⟨_, text⟩ 127).mp ⟨_, text⟩
  have flatFrame : Http.NestsWithinLimit (String.ofList (frameText (bodyText sampleResult))) := by
    rw [Http.NestsWithinLimit, Json.textDepth, String.toList_ofList]
    decide +kernel
  exact ⟨small, created.1.read flat, created.2.read ⟨_, nothing⟩,
    (answered.1.read flat).trans (bodyOf_holds _).answer_eq,
    (answered.2.read (asked.2 _ _ ⟨_, whole⟩ flatFrame)).trans (bodyOf_holds _).answer_eq⟩

/-- A number of lists inside one another. -/
def nested : Nat → Json
  | 0 => .null
  | n + 1 => .array [nested n]

def nestedText (n : Nat) : List Char :=
  List.replicate n '[' ++ sampleResult ++ List.replicate n ']'

/-- One result makes a text that is too deep over HTTP and is read over a socket; and one answer to
query text is read over HTTP and too deep over a socket. -/
theorem deep_result_divides_wires :
    (Json.Spells Json.Reader.value (String.ofList (bodyText (nestedText 126)))
        (bodyOf (nested 126)) ∧
      Json.Spells Rpc.Answer.reader (String.ofList (frameText (nestedText 126)))
        (frameOf (some (nested 126))) ∧
      ((serverWith (bodyText (nestedText 126))).perform (.select { table := some "t" })).1 =
        .error (.wire (.decode (.flaw .tooDeep ⟨1, 151⟩))) ∧
      ((peerWith (frameText (nestedText 126))).perform (.select { table := some "t" })).1 =
        .ok (nested 126)) ∧
    Json.Spells Rpc.Answer.reader (String.ofList (frameText (bodyText (nestedText 125))))
        (frameOf (some (bodyOf (nested 125)))) ∧
      ((serverWith (bodyText (nestedText 125))).perform (.query "q")).1 = .ok (nested 125) ∧
      ((peerWith (frameText (bodyText (nestedText 125)))).perform (.query "q")).1 =
        .error (.wire (.decode (.flaw .tooDeep ⟨1, 169⟩))) := by
  -- Of a text in characters, nothing has to be decoded before it is read.
  have body : Json.readWhole (Json.Reader.value 128)
      (String.ofList (bodyText (nestedText 126))) = .ok (bodyOf (nested 126)) := by
    rw [readWhole_ofList]
    decide +kernel
  have bodyTooDeep : Json.readWhole (Json.Reader.value 127)
      (String.ofList (bodyText (nestedText 126))) = .error (.flaw .tooDeep ⟨1, 151⟩) := by
    rw [readWhole_ofList]
    decide +kernel
  have frame : Json.readWhole (Rpc.Answer.reader 126)
      (String.ofList (frameText (nestedText 126))) = .ok (frameOf (some (nested 126))) := by
    rw [readWhole_ofList]
    decide +kernel
  have flatter : Json.readWhole (Json.Reader.value 127)
      (String.ofList (bodyText (nestedText 125))) = .ok (bodyOf (nested 125)) := by
    rw [readWhole_ofList]
    decide +kernel
  have wrapped : Json.readWhole (Rpc.Answer.reader 127)
      (String.ofList (frameText (bodyText (nestedText 125)))) =
        .ok (frameOf (some (bodyOf (nested 125)))) := by
    rw [readWhole_ofList]
    decide +kernel
  have wrappedTooDeep : Json.readWhole (Rpc.Answer.reader 126)
      (String.ofList (frameText (bodyText (nestedText 125)))) =
        .error (.flaw .tooDeep ⟨1, 169⟩) := by
    rw [readWhole_ofList]
    decide +kernel
  have limit : Json.greatestDepth - 1 = 126 := rfl
  have heard : Socket.heard "0" (String.ofList (frameText (bodyText (nestedText 125)))) =
      some (.error (.wire (.decode (.flaw .tooDeep ⟨1, 169⟩)))) := by
    rw [Socket.heard, Rpc.Answer.read, limit, wrappedTooDeep]
  refine ⟨⟨⟨128, body⟩, ⟨126, frame⟩, ?_, peerWith_select ?_⟩, ⟨127, wrapped⟩, ?_,
    peerWith_query heard⟩
  · rw [serverWith_select, Http.Wire.reply, Json.read, Json.greatestDepth, bodyTooDeep]
  · rw [Socket.heard, Rpc.Answer.read, limit, frame]
    rfl
  · rw [serverWith_query, Http.Wire.reply, Json.read, Json.greatestDepth, flatter]
    exact (bodyOf_holds _).answer_eq

end RecordClient
