import RecordClient.Connection.Recorder
import RecordClient.Proofs.Connection.Run
import RecordClient.Proofs.Record.Merging
import RecordClient.Proofs.Wire.Payload
/-!
# Targets on their way to the wire

A connection hands a target on as one token, which is read a second time behind it. A target that
was accepted for a write stays the same (`accepted_target_is_kept`); a record that a query finds by
its id stays the same unless its table is not known (`find_reads_record_iff`).
-/
namespace RecordClient

open Plan

/-! ### Over the wires -/

namespace RecordCall

/-- Over both wires the call is made, and about the record that it names. -/
structure Direct (c : RecordCall) (target : RecordId) (body : Record) : Prop where
  http (w : Http.Wire) : ∃ route, w.perform (c.call target body) = w.exchange route ∧
    (route = c.route target body ∨
      ∃ write : ContentWrite, write.recordCall = c ∧ route = Http.Route.ofWrite write target body)
  socket (w : Socket.Wire) : w.perform (c.call target body) =
    (c.settled target (w.call c.rpcMethod (c.params target body)).1,
      (w.call c.rpcMethod (c.params target body)).2)

variable {target : RecordId} {body : Record}

theorem demand_of_table {c : RecordCall} (tabled : target.table.isSome)
    (given : c = update → target.id.isSome) : c.demand target = .ok target := by
  obtain ⟨_ | table, _ | id⟩ := target
  · cases tabled
  · cases tabled
  · cases c with
    | update => cases given rfl
    | select | create | delete => rfl
  · cases c <;> rfl

/-- A record with all that a write asks for is written to under any limit. -/
theorem direct_write {w : ContentWrite} (same : RecordId.forRecord target.raw body = .ok target)
    (asked : w.recordCall.demand target = .ok target) : w.recordCall.Direct target body := by
  have resolved : w.recordCall.resolve target body = .ok target := by
    have both : RecordId.forRecord target.raw body >>= w.recordCall.demand = .ok target :=
      bind_eq_ok.mpr ⟨target, same, asked⟩
    cases w <;> exact both
  have subject : w.subject target body = .ok target := by
    cases w with
    | create => exact same
    | update => exact resolved
  refine ⟨fun wire => ?_, fun wire => ?_⟩
  · obtain ⟨route, taken, addressed⟩ :=
      ContentWrite.route_of_resolve subject resolved wire.client.payloadLimit
    have made : wire.perform (w.recordCall.call target body) =
        wire.exchangeIf (w.route wire.client.payloadLimit target body) := by
      cases w <;> rfl
    refine ⟨route, by rw [made, taken]; rfl, ?_⟩
    rcases addressed with ⟨-, resource⟩ | text
    · exact Or.inl resource
    · exact Or.inr ⟨w, rfl, text⟩
  · rw [Socket.perform_recordCall, resolved]

theorem direct_select (asked : select.demand target = .ok target) : select.Direct target body := by
  have resolved : select.resolve target body = .ok target := asked
  refine ⟨fun wire => ⟨select.route target body, ?_, Or.inl rfl⟩, fun wire => ?_⟩
  · have route := Http.resource_route (c := select) (by decide) target body
    rw [asked] at route
    exact congrArg wire.exchangeIf route
  · rw [Socket.perform_recordCall, resolved]

end RecordCall

/-! ### Writes -/

namespace Connection

/-- A call that a connection makes for a token of its caller, about the record that the token and
the body name together. -/
def Accepted (token : String) (c : Call) : Prop :=
  ∃ (call : RecordCall) (target : RecordId) (body : Record), c = call.call target body ∧
    RecordId.forRecord token body = .ok target ∧ target.table.isSome ∧ call.Direct target body

variable {token : String} {target : RecordId} {body : Record}

theorem accepted_write (w : ContentWrite) (own : RecordId.forRecord token body = .ok target)
    {table : String} (named : target.table = some table)
    (given : w.recordCall = .update → target.id.isSome) :
    Accepted token (w.recordCall.call target body) := by
  have tabled := Option.isSome_of_eq_some named
  have same := RecordId.forRecord_raw_again own named
  exact ⟨w.recordCall, target, body, rfl, own, tabled,
    RecordCall.direct_write same (RecordCall.demand_of_table tabled given)⟩

theorem accepted_select (own : RecordId.forRecord token body = .ok target) {table : String}
    (named : target.table = some table) : Accepted token (.select target) := by
  have tabled := Option.isSome_of_eq_some named
  exact ⟨.select, target, body, rfl, own, tabled,
    RecordCall.direct_select (RecordCall.demand_of_table tabled nofun)⟩

theorem makes_createRow (table : String) (row : Json) :
    Makes (Accepted table) (createRow table row) := by
  unfold createRow
  refine makes_check_bind fun body _ => makes_check_bind fun target own =>
    makes_check_bind fun _ tabled => makes_request ?_
  exact accepted_write .create own (RecordId.requireTable_eq_ok.mp tabled) nofun

theorem makes_createRows (table : String) (rows : List Json) :
    Makes (Accepted table) (createRows table rows) := by
  induction rows with
  | nil => exact .done _
  | cons row rest ih => exact (makes_createRow table row).bind fun v => ih.map (v :: ·)

theorem makes_create (table : String) (data : Json) :
    Makes (Accepted table) (create table data) := by
  match data with
  | .array rows => exact (makes_createRows table rows).map Json.array
  | .null | .bool _ | .number _ | .string _ | .object _ => exact makes_createRow table _

theorem makes_update (table : String) (data : Json) :
    Makes (Accepted table) (update table data) := by
  unfold update
  refine makes_check_bind fun body _ => makes_check_bind fun target own =>
    makes_check_bind fun _ tabled => makes_check_bind fun _ given => makes_request ?_
  exact accepted_write .update own (RecordId.requireTable_eq_ok.mp tabled) fun _ =>
    Option.isSome_of_eq_some (RecordId.requireId_eq_ok.mp given)

theorem makes_upsert (target : String) (data : Json) {keys : List String}
    (keyed : keys = [] ∨ keys = idKeys) : Makes (Accepted target) (upsert target data keys) := by
  rcases upsert_cases target data keys with
    ⟨e, same⟩ | ⟨body, named, table, byId, same⟩ | ⟨_, _, _, _, byColumns, -⟩
  · rw [same]
    exact .done _
  · have tabled := RecordId.requireTable_eq_ok.mp byId.tabled
    obtain ⟨id, given⟩ := byId.identified
    rw [same]
    refine (makes_request (accepted_select byId.own tabled)).bind fun v => makes_request ?_
    unfold writeById
    split
    · exact accepted_write .create byId.own tabled nofun
    · exact accepted_write .update byId.own tabled fun _ =>
        Option.isSome_of_eq_some (RecordId.requireId_eq_ok.mp given)
  · exact absurd keyed (not_or.mpr byColumns.columns)

/-- The token whose record an operation writes to: that of a creation, an update, or an upsert by
id. -/
def Operation.token? : Operation → Option String
  | .create table _ | .insert table _ | .update table _ => some table
  | .upsert target _ keys => if keys = [] ∨ keys = idKeys then some target else none
  | _ => none

theorem makes_plan {op : Operation} (written : op.token? = some token) :
    Makes (Accepted token) op.plan := by
  match op with
  | .create table data | .insert table data =>
    cases written
    exact makes_create _ data
  | .update table data =>
    cases written
    exact makes_update _ data
  | .upsert target data keys =>
    rw [Operation.token?, Option.ite_none_right_eq_some] at written
    obtain ⟨keyed, ⟨⟩⟩ := written
    exact makes_upsert _ data keyed

end Connection

/-- A record of a table that a token and a body name together is read back from its own token, with
the body and without it. So the calls of a creation, an update or an upsert by id, whatever their
replies, are about the record that its token and the body name, and both wires carry them out for
that record. -/
theorem accepted_target_is_kept :
    (∀ (token : String) (body : Record) (r : RecordId), RecordId.forRecord token body = .ok r →
      r.table.isSome →
      RecordId.forRecord r.raw body = .ok r ∧ RecordId.parse (some r.raw) none = .ok r) ∧
    ∀ {σ : Type} (perform : Perform σ) (s : σ) (op : Connection.Operation) (token : String),
      op.token? = some token →
      ∀ c reply, (c, reply) ∈ (run perform op.plan s).exchanges → Connection.Accepted token c := by
  refine ⟨fun token body r accepted tabled => ?_, fun perform s op token written c reply made => ?_⟩
  · obtain ⟨table, named⟩ := Option.isSome_iff_exists.mp tabled
    exact ⟨RecordId.forRecord_raw_again accepted named,
      RecordId.parse_raw (RecordId.parse_wellFormed accepted) named⟩
  · exact (Connection.makes_plan written).of_mem made

/-- A body whose id names a record of its own. -/
def sampleNaming : Record := ⟨[("id", .string "t:a:b")]⟩

/-- The table is only in the body, and the id, which has a colon, in both. -/
theorem sampleUpdate_target_is_kept :
    RecordId.forRecord ":a:b" sampleNaming = .ok ⟨some "t", some "a:b"⟩ ∧
      RecordId.forRecord "t:a:b" sampleNaming = .ok ⟨some "t", some "a:b"⟩ ∧
      Connection.Accepted ":a:b" (.update ⟨some "t", some "a:b"⟩ sampleNaming) := by
  have own : RecordId.forRecord ":a:b" sampleNaming = .ok ⟨some "t", some "a:b"⟩ := by decide
  obtain ⟨again, made⟩ := accepted_target_is_kept
  refine ⟨own, (again _ _ _ own rfl).1, ?_⟩
  refine made Recorder.perform ⟨[]⟩ (.update ":a:b" sampleNaming.toJson) _ rfl _
    (.ok (.array [])) ?_
  exact List.mem_singleton.mpr rfl

/-! ### Records found by id -/

namespace Query

/-- The id of a look-up is read as a token of its own: with the table of the query it names no
table, but on its own the id behind that names one. -/
def Adrift (q : Query) (id : String) (found : RecordId) : Prop :=
  ∃ rest, RecordId.parse (some q.table) (some id) = .ok ⟨none, some rest⟩ ∧
    found = RecordId.ofTableToken rest ∧ found.table.isSome

/-- The plan that asks for one record. -/
def pick (target : RecordId) : Plan (Option Json) :=
  (fun v => (rows v).head?) <$> request (.select target)

theorem find_of_refused {q : Query} {id : String} {e : Refusal}
    (bad : RecordId.parse (some q.table) (some id) = .error e) : q.find id = fail (.refusal e) := by
  unfold find
  rw [bad]
  rfl

theorem find_of_missing {q : Query} {id : String} {target : RecordId}
    (named : RecordId.parse (some q.table) (some id) = .ok target) (missing : target.id = none) :
    q.find id = fail (.refusal (.missingId "find")) := by
  unfold find
  rw [named, check_ok_bind, RecordId.requireId, missing]
  rfl

theorem find_of_id {q : Query} (bound : q.bound = true) {id rest : String} {target : RecordId}
    (named : RecordId.parse (some q.table) (some id) = .ok target) (given : target.id = some rest) :
    q.find id = (fun v => (rows v).head?) <$> Connection.get target.raw none := by
  unfold find
  rw [named, check_ok_bind, RecordId.requireId, given, if_pos bound]
  rfl

end Query

theorem Connection.get_of_parse {token : String} {target : RecordId}
    (read : RecordId.parse (some token) none = .ok target) :
    get token none = check target.requireTable >>= fun _ => request (.select target) := by
  unfold get
  rw [read]
  rfl

namespace Query

theorem find_of_record {q : Query} (bound : q.bound = true) {id table rest : String}
    (named : RecordId.parse (some q.table) (some id) = .ok ⟨some table, some rest⟩) :
    q.find id = pick ⟨some table, some rest⟩ := by
  rw [find_of_id bound named rfl,
    Connection.get_of_parse (RecordId.parse_raw (RecordId.parse_wellFormed named) rfl)]
  rfl

theorem find_cases {q : Query} (bound : q.bound = true) (id : String) :
    ((∃ e, q.find id = fail (.refusal e)) ∧ ¬ ∃ found, q.Adrift id found) ∨
    (∃ table rest, RecordId.parse (some q.table) (some id) = .ok ⟨some table, some rest⟩ ∧
      q.find id = pick ⟨some table, some rest⟩) ∨
    ∃ found, q.Adrift id found ∧ q.find id = pick found := by
  cases parsed : RecordId.parse (some q.table) (some id) with
  | error e =>
    refine Or.inl ⟨⟨e, find_of_refused parsed⟩, ?_⟩
    rintro ⟨found, rest, named, -⟩
    cases parsed.symm.trans named
  | ok target =>
    obtain ⟨table, _ | rest⟩ := target
    · refine Or.inl ⟨⟨_, find_of_missing parsed rfl⟩, ?_⟩
      rintro ⟨found, rest, named, -⟩
      cases parsed.symm.trans named
    cases table with
    | some table => exact Or.inr (Or.inl ⟨table, rest, rfl, find_of_record bound parsed⟩)
    | none =>
      have read := find_of_id bound parsed rfl
      -- The token of an id without a table is the id, which is read in the place of a table now.
      rw [RecordId.raw, Connection.get_of_parse (RecordId.parse_alone rest)] at read
      cases named : (RecordId.ofTableToken rest).requireTable with
      | ok table =>
        rw [named] at read
        have tabled : (RecordId.ofTableToken rest).table.isSome := by
          rw [RecordId.requireTable_eq_ok.mp named]
          rfl
        exact Or.inr (Or.inr ⟨_, ⟨rest, parsed, rfl, tabled⟩, read⟩)
      | error e =>
        rw [named] at read
        refine Or.inl ⟨⟨e, read⟩, ?_⟩
        rintro ⟨found, other, same, rfl, tabled⟩
        cases parsed.symm.trans same
        obtain ⟨table, given⟩ := Option.isSome_iff_exists.mp tabled
        cases named.symm.trans (RecordId.requireTable_eq_ok.mpr given)

theorem exchanges_pick {σ : Type} (perform : Perform σ) (target : RecordId) (s : σ) :
    (Plan.run perform (pick target) s).exchanges =
      [(.select target, (perform (.select target) s).1)] := by
  rw [pick, run_map_request]

/-- A bound query that finds a record by its id is refused with no call made, or reads that record
and nothing else, exactly unless its table and the id name no table between them and the id that
they name reads as a token with one. Then that is read: a whole table, or a record of it. -/
theorem find_reads_record_iff {σ : Type} {perform : Perform σ} {s : σ} {q : Query} {id : String}
    {o : Outcome σ (Option Json)} (bound : q.bound = true)
    (ran : Plan.run perform (q.find id) s = o) :
    (((o.exchanges = [] ∧ ∃ e, o.result = .error (.refusal e)) ∨
      ∃ table rest reply, RecordId.parse (some q.table) (some id) = .ok ⟨some table, some rest⟩ ∧
        o.exchanges = [(.select ⟨some table, some rest⟩, reply)]) ↔
      ¬ ∃ found, q.Adrift id found) ∧
    ∀ found, q.Adrift id found → ∃ reply, o.exchanges = [(.select found, reply)] := by
  subst ran
  rcases find_cases bound id with
    ⟨⟨e, same⟩, steady⟩ | ⟨table, rest, named, same⟩ | ⟨found, adrift, same⟩
  · rw [same]
    exact ⟨iff_of_true (Or.inl ⟨rfl, e, rfl⟩) steady, fun found adrift =>
      absurd ⟨found, adrift⟩ steady⟩
  · have steady : ¬ ∃ found, q.Adrift id found := by
      rintro ⟨found, other, nameless, -⟩
      cases named.symm.trans nameless
    rw [same]
    exact ⟨iff_of_true (Or.inr ⟨table, rest, _, named, exchanges_pick perform _ s⟩) steady,
      fun found adrift => absurd ⟨found, adrift⟩ steady⟩
  · obtain ⟨rest, nameless, rfl, tabled⟩ := adrift
    have sent := exchanges_pick perform (RecordId.ofTableToken rest) s
    rw [same]
    refine ⟨iff_of_false ?_ (not_not_intro ⟨_, rest, nameless, rfl, tabled⟩), ?_⟩
    · rintro (⟨nothing, -⟩ | ⟨_, _, _, named, -⟩)
      · cases sent.symm.trans nothing
      · cases nameless.symm.trans named
    · rintro _ ⟨other, again, rfl, -⟩
      cases nameless.symm.trans again
      exact ⟨_, sent⟩

theorem sampleFind_reads_record :
    (Query.ofConnection "t").bound = true ∧
      ∃ table rest reply,
        RecordId.parse (some "t") (some "t:a:b") = .ok ⟨some table, some rest⟩ ∧
        (Plan.run Recorder.perform ((Query.ofConnection "t").find "t:a:b") ⟨[]⟩).exchanges =
          [(.select ⟨some table, some rest⟩, reply)] := by
  have parsed : RecordId.parse (some "t") (some "t:a:b") = .ok ⟨some "t", some "a:b"⟩ := by decide
  have steady : ¬ ∃ found, (Query.ofConnection "t").Adrift "t:a:b" found := by
    rintro ⟨found, rest, nameless, -⟩
    cases parsed.symm.trans nameless
  have reads := find_reads_record_iff (q := Query.ofConnection "t")
    (o := Plan.run Recorder.perform ((Query.ofConnection "t").find "t:a:b") ⟨[]⟩) rfl rfl
  refine ⟨rfl, (reads.1.mpr steady).resolve_left ?_⟩
  rintro ⟨⟨⟩, -⟩

/-- Neither the table nor the id names a table; the id is taken for one, and all of it is read. -/
theorem find_reads_whole_table :
    RecordId.parse (some "") (some "person") = .ok { id := some "person" } ∧
      (Plan.run Recorder.perform ((Query.ofConnection "").find "person") ⟨[]⟩).exchanges =
        [(.select { table := some "person" }, .ok (.array []))] :=
  ⟨by decide, rfl⟩

end Query

end RecordClient
