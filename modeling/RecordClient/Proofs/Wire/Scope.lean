import RecordClient.Proofs.Text.Base64
import RecordClient.Proofs.Text.Words
import RecordClient.Proofs.Wire.Address
import RecordClient.Proofs.Wire.Endpoint
/-!
# The scope of requests

A client names its scope in every request and can be given another one at any time. Over a run of
calls, each request names the scope that was chosen last before it, or else that of the settings,
and nothing but a choice of scope changes the client: `run_keeps_scope_and_credentials`.
-/
namespace RecordClient

/-- The scope that a call chooses, as namespace and database. -/
def Call.scope? : Call → Option (String × String)
  | .use ns database => some (ns, database)
  | _ => none

def Settings.scope (s : Settings) : String × String := (s.effectiveNamespace, s.effectiveDatabase)

/-- The scope chosen last, or else the one at the start. -/
def scopeAfter (start : String × String) (calls : List Call) : String × String :=
  (calls.filterMap Call.scope?).getLast?.getD start

theorem scopeAfter_concat (start : String × String) (calls : List Call) (c : Call) :
    scopeAfter start (calls ++ [c]) = c.scope?.getD (scopeAfter start calls) := by
  unfold scopeAfter
  rw [List.filterMap_append, List.getLast?_append]
  cases chosen : c.scope? <;> simp [chosen]

namespace Http

/-! ### Headers -/

def Padding (t : String) : Prop := ∀ c ∈ t.toList, c = ' ' ∨ c = '\t'

/-- How a text is read from a header: without the spaces and tabs at its ends. -/
def ReadAs (text value : String) : Prop :=
  (∃ before after, Padding before ∧ Padding after ∧ text = before ++ value ++ after) ∧
    (∀ c ∈ value.toList.head?, c ≠ ' ' ∧ c ≠ '\t') ∧
    ∀ c ∈ value.toList.getLast?, c ≠ ' ' ∧ c ≠ '\t'

/-- Basic credentials: base 64 that reads back as user and password with a colon between them. -/
def Credentials.ShownAs (c : Credentials) (value : String) : Prop :=
  ∃ digits, value = "Basic " ++ String.ofList digits ∧
    Base64.decode? digits = some (Utf8.encode (c.user ++ ":" ++ c.password))

namespace Request

/-- The values of all headers with a name. -/
def headersNamed (r : Request) (name : String) : List String :=
  (r.headers.filter (·.1 = name)).map (·.2)

theorem headerValue_eq_iff {text value : String} :
    headerValue text = value ↔ ReadAs text value := by
  have padding (t : String) : Padding t ↔ ∀ c ∈ t.toList, isPadding c = true := by
    simp [Padding, isPadding]
  have bare : (∀ c ∈ value.toList.head?, c ≠ ' ' ∧ c ≠ '\t') ∧
      (∀ c ∈ value.toList.getLast?, c ≠ ' ' ∧ c ≠ '\t') ↔ Text.Bare isPadding value.toList := by
    simp [Text.Bare, isPadding]
  have inChars : headerValue text = value ↔
      Text.stripped isPadding text.toList = value.toList := by
    rw [headerValue, ← String.toList_inj, String.toList_ofList]
  rw [inChars, Text.stripped_eq_iff, ReadAs, bare, and_comm]
  refine and_congr_left fun _ => ⟨?_, ?_⟩
  · rintro ⟨before, after, ahead, behind, same⟩
    refine ⟨String.ofList before, String.ofList after, (padding _).mpr (by simpa using ahead),
      (padding _).mpr (by simpa using behind), String.toList_inj.mp ?_⟩
    simpa [String.toList_append] using same
  · rintro ⟨before, after, ahead, behind, rfl⟩
    exact ⟨before.toList, after.toList, (padding _).mp ahead, (padding _).mp behind,
      by simp [String.toList_append]⟩

theorem authorization_shown (c : Credentials) : c.ShownAs (authorization c) :=
  ⟨_, rfl, Base64.decode?_encode _⟩

variable (r : Request)

theorem headersNamed_ns : r.headersNamed "ns" = [headerValue r.ns] := by
  obtain ⟨⟨_, _, body⟩, _, _, _, _⟩ := r
  cases body <;> simp [headersNamed, headers, List.filter_append]

theorem headersNamed_db : r.headersNamed "db" = [headerValue r.database] := by
  obtain ⟨⟨_, _, body⟩, _, _, _, _⟩ := r
  cases body <;> simp [headersNamed, headers, List.filter_append]

theorem headersNamed_authorization :
    r.headersNamed "authorization" = r.credentials.map authorization := by
  obtain ⟨⟨_, _, body⟩, _, _, _, _⟩ := r
  cases body <;> simp [headersNamed, headers, List.filter_append, List.filter_map,
    Function.comp_def]

end Request

/-! ### Steps -/

namespace Client

def scope (c : Client) : String × String := (c.ns, c.database)

def withScope (c : Client) (scope : String × String) : Client :=
  { c with ns := scope.1, database := scope.2 }

end Client

namespace Wire

theorem state_ping (w : Wire) : w.ping.2 = (w.send .health).2 := by
  unfold ping
  split <;> simp_all

theorem state_exchangeIf (w : Wire) (route : Except Refusal Route) :
    (w.exchangeIf route).2 = w ∨ ∃ r, (w.exchangeIf route).2 = (w.send r).2 := by
  cases route with
  | error e => exact Or.inl rfl
  | ok r => exact Or.inr ⟨r, state_exchange w r⟩

/-- A call chooses a scope, does nothing to the wire, or sends one request. -/
theorem perform_cases (w : Wire) (c : Call) :
    (∃ scope, c.scope? = some scope ∧
      (w.perform c).2 = { w with client := w.client.withScope scope }) ∨
    (c.scope? = none ∧ ((w.perform c).2 = w ∨ ∃ route, (w.perform c).2 = (w.send route).2)) := by
  match c with
  | .use ns database => exact Or.inl ⟨(ns, database), rfl, rfl⟩
  | .query text => exact Or.inr ⟨rfl, Or.inr ⟨_, state_exchange w _⟩⟩
  | .ping => exact Or.inr ⟨rfl, Or.inr ⟨_, state_ping w⟩⟩
  | .close => exact Or.inr ⟨rfl, Or.inl rfl⟩
  | .select _ | .create _ _ | .update _ _ | .delete _ =>
    exact Or.inr ⟨rfl, state_exchangeIf w _⟩

theorem client_send (w : Wire) (route : Route) : (w.send route).2.client = w.client := by
  unfold send
  dsimp only
  split
  · rfl
  split
  · rfl
  split <;> rfl

/-- Only a choice of scope changes the client, and nothing else about it. -/
theorem client_perform (w : Wire) (c : Call) :
    (w.perform c).2.client = w.client.withScope (c.scope?.getD w.client.scope) := by
  rcases perform_cases w c with ⟨scope, chosen, same⟩ | ⟨none, same | ⟨route, same⟩⟩
  · rw [same, chosen]
    rfl
  · rw [same, none]
    rfl
  · rw [same, none, client_send]
    rfl

theorem received_perform (w : Wire) (c : Call) :
    (w.perform c).2.received = w.received ∨
      c.scope? = none ∧
        ∃ route, (w.perform c).2.received = w.received ++ [w.client.request route] := by
  rcases perform_cases w c with ⟨scope, -, same⟩ | ⟨none, same | ⟨route, same⟩⟩
  · exact Or.inl (by rw [same])
  · exact Or.inl (by rw [same])
  · rw [same]
    rcases received_send w route with silent | sent
    · exact Or.inl silent
    · exact Or.inr ⟨none, route, sent⟩

/-! ### Runs -/

def after (w : Wire) (calls : List Call) : Wire := calls.foldl (fun w c => (w.perform c).2) w

theorem after_concat (w : Wire) (calls : List Call) (c : Call) :
    w.after (calls ++ [c]) = ((w.after calls).perform c).2 := by
  rw [after, List.foldl_append]
  rfl

theorem client_after (w : Wire) (calls : List Call) :
    (w.after calls).client = w.client.withScope (scopeAfter w.client.scope calls) := by
  induction calls using List.reverseRecOn with
  | nil => rfl
  | append_singleton calls c ih =>
    rw [after_concat, client_perform, ih, scopeAfter_concat]
    rfl

/-- Each request of a run was added alone, by a call that chose no scope, with the client that the
calls before left. -/
theorem mem_received_after {w : Wire} (fresh : w.received = []) {calls : List Call} {r : Request}
    (member : r ∈ (w.after calls).received) :
    ∃ before c later route, calls = before ++ c :: later ∧ c.scope? = none ∧
      (w.after (before ++ [c])).received = (w.after before).received ++ [r] ∧
      r = (w.after before).client.request route := by
  -- From the end, for a request is known by the state that the calls before its own left.
  induction calls using List.reverseRecOn with
  | nil =>
    rw [after, List.foldl_nil, fresh] at member
    cases member
  | append_singleton calls c ih =>
    rw [after_concat] at member
    have earlier (before : r ∈ (w.after calls).received) : ∃ ahead d later route,
        calls ++ [c] = ahead ++ d :: later ∧ d.scope? = none ∧
        (w.after (ahead ++ [d])).received = (w.after ahead).received ++ [r] ∧
        r = (w.after ahead).client.request route := by
      obtain ⟨ahead, d, later, route, rfl, rest⟩ := ih before
      refine ⟨ahead, d, later ++ [c], route, ?_, rest⟩
      simp
    rcases received_perform (w.after calls) c with same | ⟨other, route, sent⟩
    · rw [same] at member
      exact earlier member
    · rw [sent, List.mem_append, List.mem_singleton] at member
      rcases member with before | rfl
      · exact earlier before
      · exact ⟨calls, c, [], route, rfl, other, by rw [after_concat, sent], rfl⟩

end Wire

/-! ### Settings -/

/-- The credentials that settings bring to a request for an endpoint: those of the address, then
user and password. -/
def credentialsFor (s : Settings) (e : Endpoint) : List Credentials :=
  e.credentials.toList ++ (s.user.map fun user => ⟨user, s.password.getD ""⟩ : Option _).toList

/-- A request goes to an endpoint, names a scope, and brings credentials along, in a header for
each. -/
structure Carries (s : Settings) (e : Endpoint) (scope : String × String) (r : Request) : Prop where
  endpoint : r.endpoint = e
  ns : r.ns = scope.1
  database : r.database = scope.2
  nsHeader : ∃ value, r.headersNamed "ns" = [value] ∧ ReadAs scope.1 value
  databaseHeader : ∃ value, r.headersNamed "db" = [value] ∧ ReadAs scope.2 value
  authorization :
    List.Forall₂ Credentials.ShownAs (credentialsFor s e) (r.headersNamed "authorization")

/-- A client goes to the address that settings give, and brings what they give. -/
structure Client.Follows (c : Client) (s : Settings) : Prop where
  endpoint : Endpoint.read? s.effectiveHost s.effectivePort = some c.endpoint
  scope : c.scope = s.scope
  credentials : c.credentials = s.user.map fun user => ⟨user, s.password.getD ""⟩
  payloadLimit : c.payloadLimit = s.effectivePayloadLimit

theorem follows_ofSettings {s : Settings} {client : Client}
    (built : Client.ofSettings s = .ok client) : client.Follows s := by
  unfold Client.ofSettings at built
  split at built
  · next e read =>
    cases built
    exact ⟨read, rfl, rfl, rfl⟩
  · cases built

theorem carries_request {s : Settings} {client : Client} (follows : client.Follows s)
    (scope : String × String) (route : Route) :
    Carries s client.endpoint scope ((client.withScope scope).request route) := by
  have credentials : ((client.withScope scope).request route).credentials =
      credentialsFor s client.endpoint := by
    rw [credentialsFor, ← follows.credentials]
    rfl
  refine
    { endpoint := rfl
      ns := rfl
      database := rfl
      nsHeader := ⟨_, Request.headersNamed_ns _, Request.headerValue_eq_iff.mp rfl⟩
      databaseHeader := ⟨_, Request.headersNamed_db _, Request.headerValue_eq_iff.mp rfl⟩
      authorization := ?_ }
  rw [Request.headersNamed_authorization, credentials, List.forall₂_map_right_iff]
  exact List.forall₂_same.mpr fun c _ => Request.authorization_shown c

theorem credentialsFor_eq_nil_iff {s : Settings} {e : Endpoint} :
    credentialsFor s e = [] ↔ s.user = none ∧ e.credentials = none := by
  simp only [credentialsFor, List.append_eq_nil_iff, Option.toList_eq_nil_iff,
    Option.map_eq_none_iff, and_comm]

/-- A request has a header with credentials exactly when the settings have a user or the address
brings one. -/
theorem Carries.unauthorized_iff {s : Settings} {e : Endpoint} {scope : String × String}
    {r : Request} (h : Carries s e scope r) :
    r.headersNamed "authorization" = [] ↔ s.user = none ∧ e.credentials = none := by
  rw [← credentialsFor_eq_nil_iff, ← List.length_eq_zero_iff, ← h.authorization.length_eq,
    List.length_eq_zero_iff]

/-- Whatever the server answers, if anything, the client of some settings keeps all but its scope
over a run of calls, and only a choice of scope changes that. Each request of the run carries the
scope chosen last before it, or else that of the settings. It brings the user of the settings and
the one in the address, which only a host with an at-sign has, and credentials at all exactly when
there is one of these. -/
theorem run_keeps_scope_and_credentials {s : Settings} {client : Client}
    (built : Client.ofSettings s = .ok client) (server : Option (List Response))
    (calls : List Call) :
    let w : Wire := { client, server }
    client.Follows s ∧ ('@' ∉ s.effectiveHost.toList → client.endpoint.credentials = none) ∧
    (w.after calls).client = client.withScope (scopeAfter s.scope calls) ∧
    (∀ before c later, calls = before ++ c :: later → c.scope? = none →
      (w.after (before ++ [c])).client = (w.after before).client) ∧
    ∀ r ∈ (w.after calls).received, ∃ before c later, calls = before ++ c :: later ∧
      c.scope? = none ∧ (w.after (before ++ [c])).received = (w.after before).received ++ [r] ∧
      Carries s client.endpoint (scopeAfter s.scope before) r ∧
      (r.headersNamed "authorization" = [] ↔
        s.user = none ∧ client.endpoint.credentials = none) := by
  intro w
  have follows := follows_ofSettings built
  have kept (calls : List Call) :
      (w.after calls).client = client.withScope (scopeAfter s.scope calls) := by
    rw [← follows.scope]
    exact w.client_after calls
  refine ⟨follows, Endpoint.credentials_of_read? follows.endpoint, kept calls, ?_, ?_⟩
  · intro before c later _ other
    rw [kept, kept, scopeAfter_concat, other]
    rfl
  · intro r member
    obtain ⟨before, c, later, route, split, other, sent, rfl⟩ := Wire.mem_received_after rfl member
    have carries := carries_request follows (scopeAfter s.scope before) route
    rw [← kept] at carries
    exact ⟨before, c, later, split, other, sent, carries, carries.unauthorized_iff⟩

def sampleSettings : Settings := { user := some "u", payloadLimit := some 8 }

def sampleClient : Client :=
  { endpoint := { host := "localhost", port := 8000 }, user := some "u", ns := "default",
    database := "default", payloadLimit := 8, timeout := 30 }

/-- Failures and a write that goes through query text. -/
def sampleCalls : List Call :=
  [.ping, .use "n" " d\t", .query "RETURN 1", .close,
    .create { table := some "t" } ⟨[("a", .string "long text")]⟩]

def sampleScript : Option (List Response) := some [.reply 500 "", .dropped]

def sampleAfter : Wire := Wire.after { client := sampleClient, server := sampleScript } sampleCalls

def Request.scopeHeaders (r : Request) : List String × List String :=
  (r.headersNamed "ns", r.headersNamed "db")

/-- The headers of the first request name the scope of the settings, the others the one chosen. The
database is read without the blanks that were given with it. -/
theorem sampleAfter_keeps_scope :
    Client.ofSettings sampleSettings = .ok sampleClient ∧
      sampleAfter.client = { sampleClient with ns := "n", database := " d\t" } ∧
      sampleAfter.received.map (fun r => (r.path, r.scopeHeaders)) =
        [("/health", ["default"], ["default"]), ("/sql", ["n"], ["d"]), ("/sql", ["n"], ["d"])] ∧
      (∀ r ∈ sampleAfter.received, r.headersNamed "authorization" = ["Basic dTo="]) ∧
      ∀ r ∈ sampleAfter.received,
        List.Forall₂ Credentials.ShownAs [⟨"u", ""⟩] (r.headersNamed "authorization") := by
  have built : Client.ofSettings sampleSettings = .ok sampleClient := by decide +kernel
  obtain ⟨-, -, kept, -, each⟩ := run_keeps_scope_and_credentials built sampleScript sampleCalls
  refine ⟨built, kept, by decide +kernel, by decide +kernel, ?_⟩
  intro r member
  obtain ⟨_, _, _, -, -, -, carries, -⟩ := each r member
  exact carries.authorization

def sampleGuest : Settings := { host := some "alice:secret@db", port := some 80 }

def sampleGuestClient : Client :=
  { endpoint :=
      { host := "db", port := 80, credentials := some ⟨"alice", "secret"⟩ }
    ns := "default", database := "default", payloadLimit := sampleGuest.effectivePayloadLimit,
    timeout := 30 }

/-- Requests bring credentials although the settings have no user, for the host brings one. -/
theorem address_brings_credentials :
    sampleGuest.user = none ∧ Client.ofSettings sampleGuest = .ok sampleGuestClient ∧
      (Wire.after { client := sampleGuestClient, server := some [] } [.ping]).received.map
        (fun r => (r.path, r.headersNamed "authorization")) =
        [("/health", ["Basic YWxpY2U6c2VjcmV0"])] := by
  decide +kernel

end Http

end RecordClient
