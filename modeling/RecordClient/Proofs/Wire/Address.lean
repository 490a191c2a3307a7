import RecordClient.Proofs.Record.Id
import RecordClient.Proofs.Wire.Path
import RecordClient.Wire.Http
/-!
# Addresses of records

Which paths the requests for a record are sent to. `resource_path_exact` shows that the path names
the record, and no other, exactly when its table and id are `Faithful` segments.
-/
namespace RecordClient

def RecordId.segments (r : RecordId) : List String := "key" :: r.table.toList ++ r.id.toList

def RecordId.path (r : RecordId) : String := Path.text (Path.ofSegments r.segments)

/-- Records whose table and id both survive in a path. -/
def RecordId.Faithful (r : RecordId) : Prop :=
  (∀ table, r.table = some table → Path.Faithful table) ∧ ∀ id, r.id = some id → Path.Faithful id

/-! ### Paths of records -/

namespace RecordId

theorem faithful_key : Path.Faithful "key" := by decide

theorem faithful_iff_segments (r : RecordId) : r.Faithful ↔ ∀ s ∈ r.segments, Path.Faithful s := by
  simp [segments, Faithful, faithful_key, or_imp, forall_and]

theorem read?_path_iff (r : RecordId) : Path.read? r.path = some r.segments ↔ r.Faithful := by
  rw [faithful_iff_segments]
  exact Path.read?_ofSegments_iff (by simp [segments]) (by simp [segments])

theorem eq_of_segments_eq {a b : RecordId} (ha : a.table.isSome) (hb : b.table.isSome)
    (h : a.segments = b.segments) : a = b := by
  obtain ⟨_ | s, i⟩ := a
  · cases ha
  obtain ⟨_ | t, j⟩ := b
  · cases hb
  cases i <;> cases j <;> simp_all [segments]

theorem eq_of_path_eq {a b : RecordId} (ha : a.table.isSome) (hb : b.table.isSome)
    (fa : a.Faithful) (fb : b.Faithful) (h : a.path = b.path) : a = b := by
  have ra := (read?_path_iff a).mpr fa
  have rb := (read?_path_iff b).mpr fb
  rw [h, rb] at ra
  exact eq_of_segments_eq ha hb (Option.some.inj ra).symm

theorem ofSegments_eq_of_path_eq {a b : RecordId} (h : a.path = b.path) :
    Path.ofSegments a.segments = Path.ofSegments b.segments :=
  Path.text_inj (Path.unbroken_ofSegments _) (Path.unbroken_ofSegments _)
    (Path.ofSegments_ne_nil _) (Path.ofSegments_ne_nil _) h

theorem length_ofSegments {r : RecordId} (faithful : r.Faithful) :
    (Path.ofSegments r.segments).length = r.segments.length :=
  Path.length_of_decodeAll? (Path.decodeAll?_ofSegments ((faithful_iff_segments r).mp faithful)
    (by simp [segments]) (by simp [segments]))

theorem path_ne_table {r : RecordId} (faithful : r.Faithful) (tabled : r.table.isSome)
    (single : r.id.isSome) (other : String) : r.path ≠ path { table := some other } := by
  intro same
  have pieces := congrArg List.length (ofSegments_eq_of_path_eq same)
  rw [length_ofSegments faithful] at pieces
  have short : (Path.ofSegments (segments { table := some other })).length ≤ 2 :=
    Path.length_ofSegments_le (by simp [segments])
  obtain ⟨table, htable⟩ := Option.isSome_iff_exists.mp tabled
  obtain ⟨id, hid⟩ := Option.isSome_iff_exists.mp single
  have three : r.segments.length = 3 := by simp [segments, htable, hid]
  omega

/-- A record of a faithful table is addressed as the whole table exactly when its id is a dot
segment. -/
theorem path_eq_table_iff {table id : String} (faithful : Path.Faithful table)
    (some_text : table ≠ "") :
    path { table := some table, id := some id } = path { table := some table } ↔
      id = "." ∨ id = ".." := by
  have added : Path.ofSegments (segments { table := some table, id := some id }) =
      Path.push (Path.ofSegments (segments { table := some table })) id :=
    Path.ofSegments_concat ["key", table] id
  have whole : Faithful { table := some table } := by simp [Faithful, faithful]
  have two : (Path.ofSegments (segments { table := some table })).length = 2 :=
    length_ofSegments whole
  have read := (Path.decodeAll?_ofSegments ((faithful_iff_segments _).mp whole)
    (by simp [segments]) (by simp [segments]))
  have start : Path.ofSegments (segments { table := some table }) ≠ Path.root := by
    intro same
    rw [same] at two
    cases two
  constructor
  · intro same
    have same := ofSegments_eq_of_path_eq same
    rw [added] at same
    rcases Path.push_cases (Path.ofSegments (segments { table := some table })) id with
      ⟨dots, -⟩ | ⟨-, -, before, -, pushed⟩ | ⟨-, pushed⟩
    · exact dots
    · -- The piece of the table would be empty.
      rw [pushed] at same
      rw [← same] at read
      have last : segments { table := some table } = ["key"] ++ [table] := rfl
      rw [last, Path.decodeAll?_concat] at read
      exact absurd (Option.some.inj (read.2.symm.trans (by decide))) some_text
    · rw [pushed, Path.ahead_of_ne start] at same
      have pieces := congrArg List.length same
      rw [List.length_append, List.length_singleton] at pieces
      omega
  · intro dots
    rw [path, added, Path.push, if_pos dots]
    rfl

end RecordId

/-! ### Requests for records -/

namespace Http

/-- The calls about one record or table; only writes look at the body. -/
def recordCalls (target : RecordId) (body : Record) : List Call :=
  [.select target, .create target body, .update target body, .delete target]

/-- The record that a call is about, which for a write its body may give an id. -/
def subject : Call → Except Refusal RecordId
  | .select target | .delete target => .ok target
  | .create target body | .update target body => RecordId.forRecord target.raw body
  | _ => .ok {}

theorem resource_eq_ok {r : RecordId} {segments : List String}
    (h : Route.resource r = .ok segments) : segments = r.segments := by
  obtain ⟨table, named, rest⟩ := bind_eq_ok.mp h
  rw [RecordId.requireTable_eq_ok] at named
  cases rest
  simp [RecordId.segments, named]

/-- Whether requests arrive: they can be written, there is time to wait, and a server listens. -/
def Wire.reaches (w : Wire) : Bool :=
  w.client.ns.toList.all Request.isHeaderChar && w.client.database.toList.all Request.isHeaderChar
    && w.client.timeout ≠ 0 && w.server.isSome

theorem send_cases (w : Wire) (r : Route) :
    (w.reaches = false ∧ (∃ e, (w.send r).1 = .error e) ∧ (w.send r).2 = w) ∨
    ∃ response, w.reaches = true ∧ w.server.map (·.headD Wire.emptyReply) = some response ∧
      (w.send r).1 = .ok response ∧ (w.send r).2.received = w.received ++ [w.client.request r] := by
  have same : w.reaches =
      ((w.client.request r).isSendable && w.client.timeout ≠ 0 && w.server.isSome) := rfl
  rw [same]
  unfold Wire.send
  dsimp only
  split
  · next unsendable => exact Or.inl ⟨by simp_all, ⟨_, rfl⟩, rfl⟩
  split
  · next hurried => exact Or.inl ⟨by simp_all, ⟨_, rfl⟩, rfl⟩
  split
  · next silent => exact Or.inl ⟨by simp_all, ⟨_, rfl⟩, rfl⟩
  · next script listens =>
    exact Or.inr ⟨script.headD Wire.emptyReply, by simp_all, by rw [listens]; rfl, rfl, rfl⟩

theorem received_send (w : Wire) (route : Route) :
    (w.send route).2.received = w.received ∨
      (w.send route).2.received = w.received ++ [w.client.request route] := by
  rcases send_cases w route with ⟨-, -, same⟩ | ⟨_, -, -, -, sent⟩
  · exact Or.inl (congrArg Wire.received same)
  · exact Or.inr sent

theorem state_exchange (w : Wire) (route : Route) : (w.exchange route).2 = (w.send route).2 := by
  unfold Wire.exchange
  split <;> simp_all

theorem received_exchange (w : Wire) (route : Route) :
    (w.exchange route).2.received = (w.send route).2.received :=
  congrArg Wire.received (state_exchange w route)

theorem received_exchangeIf (w : Wire) (route : Except Refusal Route) :
    (w.exchangeIf route).2.received = w.received ∨
      ∃ r, route = .ok r ∧
        (w.exchangeIf route).2.received = w.received ++ [w.client.request r] := by
  cases route with
  | error e => exact Or.inl rfl
  | ok r =>
    have step := received_exchange w r
    rcases received_send w r with same | sent
    · exact Or.inl (step.trans same)
    · exact Or.inr ⟨r, rfl, step.trans sent⟩

theorem write_segments {w : ContentWrite} {method : Method} {limit : Nat} {named : RecordId}
    {body : Record} {route : Route}
    (h : (if Route.isOversized limit body then return Route.ofWrite w named body
      else return ⟨method, ← Route.resource named, .record body⟩ : Except Refusal Route) =
        .ok route) :
    (Route.isOversized limit body = true ∧ route.segments = ["sql"]) ∨
      route.segments = named.segments := by
  split at h
  · next large =>
    cases h
    exact Or.inl ⟨large, rfl⟩
  · obtain ⟨segments, found, rest⟩ := bind_eq_ok.mp h
    cases rest
    exact Or.inr (resource_eq_ok found)

/-- A route to the record that a call is about or, for a body over the limit, for query text. -/
def RouteOf (limit : Nat) (body : Record) (c : Call) (route : Route) : Prop :=
  ∃ named, subject c = .ok named ∧
    ((Route.isOversized limit body = true ∧ route.segments = ["sql"]) ∨
      route.segments = named.segments)

theorem routeOf_create {limit : Nat} {target : RecordId} {body : Record} {route : Route}
    (h : Route.create limit target body = .ok route) :
    RouteOf limit body (.create target body) route := by
  obtain ⟨named, found, rest⟩ := bind_eq_ok.mp h
  exact ⟨named, found, write_segments rest⟩

theorem routeOf_update {limit : Nat} {target : RecordId} {body : Record} {route : Route}
    (h : Route.update limit target body = .ok route) :
    RouteOf limit body (.update target body) route := by
  obtain ⟨named, found, rest⟩ := bind_eq_ok.mp h
  obtain ⟨_, -, rest⟩ := bind_eq_ok.mp rest
  obtain ⟨_, -, rest⟩ := bind_eq_ok.mp rest
  exact ⟨named, found, write_segments rest⟩

theorem routeOf_resource {limit : Nat} {target : RecordId} {body : Record} {c : Call}
    (about : subject c = .ok target) {method : Method} {route : Route}
    (h : (return { method, segments := ← Route.resource target } : Except Refusal Route) =
      .ok route) : RouteOf limit body c route := by
  obtain ⟨segments, found, rest⟩ := bind_eq_ok.mp h
  cases rest
  exact ⟨target, about, Or.inr (resource_eq_ok found)⟩

theorem perform_record_call (w : Wire) {target : RecordId} {body : Record} {c : Call}
    (member : c ∈ recordCalls target body) :
    ∃ route, w.perform c = w.exchangeIf route ∧
      ∀ r, route = .ok r → RouteOf w.client.payloadLimit body c r := by
  simp only [recordCalls, List.mem_cons, List.not_mem_nil, or_false] at member
  rcases member with rfl | rfl | rfl | rfl
  · exact ⟨Route.select target, rfl, fun r taken => routeOf_resource rfl taken⟩
  · exact ⟨Route.create w.client.payloadLimit target body, rfl, fun r taken => routeOf_create taken⟩
  · exact ⟨Route.update w.client.payloadLimit target body, rfl, fun r taken => routeOf_update taken⟩
  · exact ⟨Route.delete target, rfl, fun r taken => routeOf_resource rfl taken⟩

theorem received_record_call (w : Wire) {target : RecordId} {body : Record} {c : Call}
    (member : c ∈ recordCalls target body) :
    (w.perform c).2.received = w.received ∨
      ∃ r, (w.perform c).2.received = w.received ++ [r] ∧
        RouteOf w.client.payloadLimit body c r.route := by
  obtain ⟨route, performed, leads⟩ := perform_record_call w member
  rw [performed]
  rcases received_exchangeIf w route with same | ⟨r, taken, sent⟩
  · exact Or.inl same
  · exact Or.inr ⟨_, sent, leads r taken⟩

theorem subject_of_mem {target named : RecordId} {body : Record} {c : Call} {table : String}
    (member : c ∈ recordCalls target body) (well : target.WellFormed)
    (tabled : target.table = some table) (found : subject c = .ok named) :
    named.table = some table ∧ ∀ id, target.id = some id → named.id = some id := by
  simp only [recordCalls, List.mem_cons, List.not_mem_nil, or_false] at member
  rcases member with rfl | rfl | rfl | rfl
  · cases found
    exact ⟨tabled, fun _ same => same⟩
  · exact RecordId.forRecord_raw well tabled found
  · exact RecordId.forRecord_raw well tabled found
  · cases found
    exact ⟨tabled, fun _ same => same⟩

theorem path_of_segments {r : Request} {named : RecordId} (h : r.route.segments = named.segments) :
    r.path = named.path := by
  rw [Request.path, h]
  rfl

/-- A call about a record of a table sends nothing, or one request to the path of the record that
target and body name, or, for a body over the limit, one to the query endpoint. The path reads back
as that record exactly when it is faithful. -/
def Addresses (w : Wire) (target : RecordId) (table : String) (body : Record) (c : Call) : Prop :=
  (w.perform c).2.received = w.received ∨
    ∃ r named, (w.perform c).2.received = w.received ++ [r] ∧ subject c = .ok named ∧
      named.table = some table ∧ (∀ id, target.id = some id → named.id = some id) ∧
      ((Route.isOversized w.client.payloadLimit body = true ∧ r.path = "/sql") ∨
        (r.path = named.path ∧
          (Path.read? r.path = some ("key" :: table :: named.id.toList) ↔ named.Faithful)))

theorem addresses_of_parse {tableToken idToken : Option String} {target : RecordId} {table : String}
    (parsed : RecordId.parse tableToken idToken = .ok target) (tabled : target.table = some table)
    (w : Wire) {body : Record} {c : Call} (member : c ∈ recordCalls target body) :
    Addresses w target table body c := by
  have well := RecordId.parse_wellFormed parsed
  rcases received_record_call w member with same | ⟨r, sent, named, found, segments⟩
  · exact Or.inl same
  obtain ⟨inTable, sameId⟩ := subject_of_mem member well tabled found
  refine Or.inr ⟨r, named, sent, found, inTable, sameId, ?_⟩
  rcases segments with ⟨large, query⟩ | segments
  · left
    refine ⟨large, ?_⟩
    rw [Request.path, query]
    decide
  · right
    have addressed := path_of_segments segments
    have read := RecordId.read?_path_iff named
    rw [RecordId.segments, inTable] at read
    exact ⟨addressed, addressed ▸ read⟩

/-- Every request for a record goes to the path of the record that the call is about, which names
it exactly when its table and id are faithful. A faithful record has a path of its own, which no
table has; and a record of a faithful table is addressed as the whole table exactly when its id is
a dot segment. -/
theorem resource_path_exact {tableToken idToken : Option String} {target : RecordId}
    {table : String} (parsed : RecordId.parse tableToken idToken = .ok target)
    (tabled : target.table = some table) (w : Wire) {body : Record} {c : Call}
    (member : c ∈ recordCalls target body) :
    Addresses w target table body c ∧
    ∀ named, subject c = .ok named →
      (named.Faithful → ∀ other : RecordId, other.table.isSome → other.Faithful →
        named.path = other.path → named = other) ∧
      (named.Faithful → named.id.isSome →
        ∀ other, named.path ≠ RecordId.path { table := some other }) ∧
      (Path.Faithful table → ∀ id, named.id = some id →
        (named.path = RecordId.path { table := some table } ↔ id = "." ∨ id = "..")) := by
  have well := RecordId.parse_wellFormed parsed
  refine ⟨addresses_of_parse parsed tabled w member, fun named found => ?_⟩
  have inTable := (subject_of_mem member well tabled found).1
  have some_table : named.table.isSome := by rw [inTable]; rfl
  refine ⟨?_, ?_, ?_⟩
  · intro faithful other tabled otherFaithful same
    exact RecordId.eq_of_path_eq some_table tabled faithful otherFaithful same
  · intro faithful single
    exact RecordId.path_ne_table faithful some_table single
  · intro faithful id single
    have whole : named = { table := some table, id := some id } := by
      obtain ⟨_, _⟩ := named
      cases inTable
      cases single
      rfl
    rw [whole]
    exact RecordId.path_eq_table_iff faithful (well.1 table tabled).1

def sampleWire : Wire where
  client :=
    { endpoint := { host := "localhost", port := 8000 }, ns := "n", database := "d",
      payloadLimit := 100, timeout := 30 }
  server := some []

def sampleRecord : RecordId := { table := some "t", id := some "a/b c" }

theorem sampleRecord_faithful : sampleRecord.Faithful :=
  (RecordId.faithful_iff_segments _).mpr (by decide)

def sampleNeighbour : RecordId := { table := some "t", id := some "a%2Fb%20c" }

theorem sampleNeighbour_faithful : sampleNeighbour.Faithful :=
  (RecordId.faithful_iff_segments _).mpr (by decide)

theorem delete_path_exact_at_sample :
    Addresses sampleWire sampleRecord "t" ⟨[]⟩ (.delete sampleRecord) ∧
      sampleRecord.path ≠ sampleNeighbour.path ∧
      sampleRecord.path ≠ RecordId.path { table := some "t" } := by
  have parsed : RecordId.parse (some "t") (some "a/b c") = .ok sampleRecord := by decide
  have member : Call.delete sampleRecord ∈ recordCalls sampleRecord ⟨[]⟩ := by simp [recordCalls]
  have all := resource_path_exact parsed rfl sampleWire member
  obtain ⟨own, noTable, -⟩ := all.2 sampleRecord rfl
  refine ⟨all.1, fun same => ?_, noTable sampleRecord_faithful rfl "t"⟩
  exact absurd (own sampleRecord_faithful sampleNeighbour rfl sampleNeighbour_faithful same)
    (by decide)

/-- The request that deletes the record `.` of a table goes to the path of the whole table, and
records whose ids differ in a tab share a path. -/
theorem delete_dot_reaches_table :
    RecordId.parse (some "t") (some ".") = .ok { table := some "t", id := some "." } ∧
      (sampleWire.perform (.delete { table := some "t", id := some "." })).2.received.map
        Request.path = ["/key/t"] ∧
      RecordId.path { table := some "t" } = "/key/t" ∧
      RecordId.path { table := some "t", id := some "a\tb" } =
        RecordId.path { table := some "t", id := some "ab" } := by
  decide

end Http

end RecordClient
