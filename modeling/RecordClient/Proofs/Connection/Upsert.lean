import Mathlib.Data.List.Forall2
import RecordClient.Connection.Recorder
import RecordClient.Proofs.Connection.Run
import RecordClient.Proofs.Query.Condition
import RecordClient.Proofs.Record.Id
/-!
# Upserts

An upsert looks a record up and then writes at most once. `upsert_reads_then_writes` says which
calls these are, and `upsert_creates_beside_match_iff` when a record is created although one was
found.
-/
namespace RecordClient.Connection

open Plan

/-! ### The query of a look-up -/

def conditionTexts (conditions : List (String × Json)) : List String :=
  conditions.map fun c => c.1 ++ " = " ++ Literal.ofJson c.2

/-- The query for the id of one record of a table that meets all conditions. -/
def lookupText (table : String) (conditions : List (String × Json)) : String :=
  "SELECT id FROM " ++ table ++ " WHERE (" ++ " AND ".intercalate (conditionTexts conditions)
    ++ ") LIMIT 1"

def equalities (conditions : List (String × Json)) : List Filter :=
  conditions.map fun c => .equal c.1 c.2

theorem joins_equalities (conditions : List (String × Json)) :
    Filter.joins .and (equalities conditions) =
      (conditionTexts conditions).map (Filter.Join.and, ·) := by
  induction conditions with
  | nil => rfl
  | cons c rest ih =>
    have text : Filter.clause? (.equal c.1 c.2) = some (c.1 ++ " = " ++ Literal.ofJson c.2) := by
      simp [Filter.equal, Filter.clause?, Filter.comparison, String.append_assoc]
    rw [equalities, List.map_cons, Filter.joins, text]
    exact congrArg _ ih

theorem plainColumns_equalities (conditions : List (String × Json)) :
    Filter.PlainColumns (Filter.allMemberColumns (equalities conditions)) := by
  have none : Filter.allMemberColumns (equalities conditions) = [] := by
    induction conditions with
    | nil => rfl
    | cons c rest ih => exact ih
  rw [none]
  decide

theorem render_and (texts : List String) :
    Filter.render (texts.map (Filter.Join.and, ·)) = " AND ".intercalate texts := by
  induction texts with
  | nil => rfl
  | cons t rest ih =>
    cases rest with
    | nil => simp [Filter.render, Filter.joinedText]
    | cons u rest =>
      rw [String.intercalate_cons_cons, ← ih]
      simp [Filter.render, Filter.joinedText, Filter.Join.text, String.append_assoc]

theorem compile_equalities (conditions : List (String × Json)) :
    Filter.compile (equalities conditions) = " AND ".intercalate (conditionTexts conditions) := by
  rw [Filter.compile_eq_render, Filter.settle_joins (plainColumns_equalities conditions),
    joins_equalities, render_and]

theorem compile_group {filters : List Filter} (some_text : Filter.compile filters ≠ "")
    (plain : Filter.PlainColumns (Filter.allMemberColumns filters)) :
    Filter.compile [.group filters] = "(" ++ Filter.compile filters ++ ")" := by
  have plain : Filter.PlainColumns (Filter.allMemberColumns [.group filters]) := by
    simpa [Filter.allMemberColumns, Filter.memberColumns] using plain
  rw [Filter.compile_eq_render, Filter.settle_joins plain, Filter.joins, Filter.clause?,
    if_neg some_text]
  simp [Filter.render, Filter.joins, Filter.joinedText]

theorem whereText_equalities {q : Query} {conditions : List (String × Json)}
    (only : q.filters = [.group (equalities conditions)]) (some_condition : conditions ≠ []) :
    q.whereText = " WHERE (" ++ " AND ".intercalate (conditionTexts conditions) ++ ")" := by
  have leaf : Filter.compile (equalities conditions) ≠ "" := by
    rw [ne_eq, Filter.compile_eq_empty_iff, joins_equalities]
    simpa [conditionTexts] using some_condition
  have group := compile_group leaf (plainColumns_equalities conditions)
  rw [compile_equalities] at group
  have closed (t : String) : "(" ++ t ++ ")" ≠ "" := by simp
  have written (t : String) : " WHERE " ++ ("(" ++ t ++ ")") = " WHERE (" ++ t ++ ")" := by
    rw [← String.append_assoc, ← String.append_assoc]
    rfl
  rw [Query.whereText, only, group]
  exact (if_neg (closed _)).trans (written _)

theorem selectText_lookup (table : String) {conditions : List (String × Json)}
    (some_condition : conditions ≠ []) :
    (lookup table (equalities conditions)).selectText = lookupText table conditions := by
  have condition := whereText_equalities (q := lookup table (equalities conditions)) rfl
    some_condition
  have columns : "SELECT " ++ (lookup table (equalities conditions)).columnsText ++ " FROM " =
      "SELECT id FROM " := rfl
  have limit : (lookup table (equalities conditions)).limitText = " LIMIT 1" := rfl
  have others : (lookup table (equalities conditions)).groupText = "" ∧
      (lookup table (equalities conditions)).orderText = "" ∧
      (lookup table (equalities conditions)).startText = "" ∧
      (lookup table (equalities conditions)).fetchText = "" := ⟨rfl, rfl, rfl, rfl⟩
  have closed (t : String) : t ++ ")" ++ " LIMIT 1" = t ++ ") LIMIT 1" := String.append_assoc
  obtain ⟨group, order, start, fetch⟩ := others
  -- By `delta`, for the equation of so long a text takes seconds to make.
  delta Query.selectText
  rw [columns, condition, group, order, limit, start, fetch]
  simp only [String.append_empty, ← String.append_assoc]
  exact closed _

/-- The value that the record looked up has to have under a key: that of the body, and under `id`
the token of the record that target and body name. -/
def KeyValue (named : RecordId) (body : Record) (key : String) (v : Json) : Prop :=
  if key = "id" then named.id.isSome ∧ v = .string named.raw else body.get? key = some v

theorem keyFilter_eq_ok_iff {named : RecordId} {body : Record} {key : String} {f : Filter} :
    keyFilter named body key = .ok f ↔ ∃ v, KeyValue named body key v ∧ f = .equal key v := by
  unfold keyFilter KeyValue
  split
  · next same =>
    obtain ⟨table, _ | id⟩ := named <;> simp [RecordId.requireId, Except.map, same, eq_comm]
  · split
    · next v found => simp [found, eq_comm]
    · next missing => simp [missing]

theorem keyFilters_eq_ok_iff {named : RecordId} {body : Record} {keys : List String}
    {filters : List Filter} :
    keys.mapM (keyFilter named body) = .ok filters ↔
      ∃ values, List.Forall₂ (KeyValue named body) keys values ∧
        filters = equalities (keys.zip values) := by
  rw [mapM_eq_ok_iff]
  constructor
  · intro each
    induction each with
    | nil => exact ⟨[], .nil, rfl⟩
    | cons first _ ih =>
      obtain ⟨v, holds, rfl⟩ := keyFilter_eq_ok_iff.mp first
      obtain ⟨values, all, rfl⟩ := ih
      exact ⟨v :: values, .cons holds all, rfl⟩
  · rintro ⟨values, all, rfl⟩
    induction all with
    | nil => exact .nil
    | cons holds _ ih => exact .cons (keyFilter_eq_ok_iff.mpr ⟨_, holds, rfl⟩) ih

/-! ### What an upsert does -/

/-- What an upsert is about: the body of its data, and the record that target and body name. -/
structure About (target : String) (data : Json) (body : Record) (named : RecordId)
    (table : String) : Prop where
  content : data = body.toJson
  own : RecordId.forRecord target body = .ok named
  tabled : named.table = some table

/-- What an upsert needs to look its record up: an id, or a value for each of its keys, where a
target must not name one record. -/
def Ready (target : String) (data : Json) (keys : List String) : Prop :=
  ∃ body named table, About target data body named table ∧
    (((keys = [] ∨ keys = idKeys) ∧ named.id.isSome) ∨
      ((keys ≠ [] ∧ keys ≠ idKeys) ∧ RecordId.separator ∉ target.toList ∧
        ∃ values, List.Forall₂ (KeyValue named body) keys values))

/-- The call that an upsert looks its record up with. -/
inductive Lookup (keys : List String) (body : Record) (named : RecordId) (table : String) :
    Call → Prop
  | byId (keyed : keys = [] ∨ keys = idKeys) : Lookup keys body named table (.select named)
  | byColumns {values : List Json} (columns : keys ≠ [] ∧ keys ≠ idKeys)
      (each : List.Forall₂ (KeyValue named body) keys values) :
      Lookup keys body named table (.query (lookupText table (keys.zip values)))

/-- The call that an upsert writes with, after the reply to its look-up. -/
inductive Write (keys : List String) (body : Record) (named : RecordId) (table : String)
    (v : Json) : Call → Prop
  | createById (keyed : keys = [] ∨ keys = idKeys) (nothing : v.isEmpty = true) :
      Write keys body named table v (.create named body)
  | updateById (keyed : keys = [] ∨ keys = idKeys) (something : v.isEmpty = false) :
      Write keys body named table v (.update named body)
  | createByColumns (columns : keys ≠ [] ∧ keys ≠ idKeys) (nothing : foundId? v = none) :
      Write keys body named table v (.create named body)
  | updateByColumns {row : Json} {rest : List Json} {id : String} {existing : RecordId}
      (columns : keys ≠ [] ∧ keys ≠ idKeys) (found : Query.rows v = row :: rest)
      (text : (row.field? "id").bind Json.idText? = some id)
      (own : RecordId.parse (some table) (some id) = .ok existing)
      (tabled : existing.table = some table) :
      Write keys body named table v (.update existing body)

/-- A record that was found by columns but is one of another table. -/
def Stray (keys : List String) (table : String) (v : Json) (cause : Refusal) : Prop :=
  (keys ≠ [] ∧ keys ≠ idKeys) ∧ ∃ id, foundId? v = some id ∧
    RecordId.parse (some table) (some id) = .error cause

/-- How an upsert goes. -/
inductive UpsertRun (target : String) (data : Json) (keys : List String) :
    Reply → List (Call × Reply) → Prop
  | refused (cause : Refusal) : UpsertRun target data keys (.error (.refusal cause)) []
  | unread {body : Record} {named : RecordId} {table : String} {read : Call} {e : Error}
      (about : About target data body named table) (looks : Lookup keys body named table read) :
      UpsertRun target data keys (.error e) [(read, .error e)]
  | stray {body : Record} {named : RecordId} {table : String} {read : Call} {v : Json}
      {cause : Refusal} (about : About target data body named table)
      (looks : Lookup keys body named table read) (other : Stray keys table v cause) :
      UpsertRun target data keys (.error (.refusal cause)) [(read, .ok v)]
  | written {body : Record} {named : RecordId} {table : String} {read write : Call} {v : Json}
      {reply : Reply} (about : About target data body named table)
      (looks : Lookup keys body named table read) (writes : Write keys body named table v write) :
      UpsertRun target data keys reply [(read, .ok v), (write, reply)]

theorem upsertRun_of_lookup {target : String} {data : Json} {keys : List String} {body : Record}
    {named : RecordId} {table : String} {read : Call} {next : Json → Plan Json}
    (about : About target data body named table) (looks : Lookup keys body named table read)
    (later : ∀ v, (∃ cause, Stray keys table v cause ∧ next v = fail (.refusal cause)) ∨
      ∃ write, Write keys body named table v write ∧ next v = request write)
    {σ : Type} (perform : Perform σ) (s : σ) :
    UpsertRun target data keys (run perform (request read >>= next) s).result
      (run perform (request read >>= next) s).exchanges := by
  rcases reply : perform read s with ⟨e | v, t⟩
  · rw [run_request_bind_error reply]
    exact .unread about looks
  · rw [run_request_bind_ok reply]
    rcases later v with ⟨cause, other, same⟩ | ⟨write, writes, same⟩
    · rw [same]
      exact .stray about looks other
    · rw [same]
      exact .written about looks writes

theorem foundId?_eq_some {v : Json} {id : String} (h : foundId? v = some id) :
    ∃ row rest, Query.rows v = row :: rest ∧ (row.field? "id").bind Json.idText? = some id := by
  unfold foundId? at h
  cases rows : Query.rows v with
  | nil =>
    rw [rows] at h
    cases h
  | cons row rest =>
    rw [rows] at h
    exact ⟨row, rest, rfl, h⟩

/-- A record that is found in a table is one of that table. -/
theorem table_of_parse {named existing : RecordId} {table id : String} (well : named.WellFormed)
    (tabled : named.table = some table)
    (h : RecordId.parse (some table) (some id) = .ok existing) : existing.table = some table := by
  have plain : RecordId.WellFormed ⟨some table, none⟩ := by
    refine ⟨fun t same => ?_, fun i same => by cases same⟩
    cases same
    exact well.1 table tabled
  have own : RecordId.forRecord (RecordId.raw ⟨some table, none⟩) ⟨[("id", .string id)]⟩ =
      .ok existing := h
  exact (RecordId.forRecord_raw plain rfl own).1

theorem upsertRun {σ : Type} {perform : Perform σ} {s : σ} {target : String} {data : Json}
    {keys : List String} {o : Outcome σ Json} (ran : run perform (upsert target data keys) s = o) :
    UpsertRun target data keys o.result o.exchanges := by
  subst ran
  rcases upsert_cases target data keys with
    ⟨cause, same⟩ | ⟨body, named, table, byId, same⟩ |
    ⟨body, named, table, filters, byColumns, same⟩
  · rw [same]
    exact .refused cause
  · have about : About target data body named table :=
      ⟨Record.require_eq_ok.mp byId.shaped, byId.own, RecordId.requireTable_eq_ok.mp byId.tabled⟩
    rw [same]
    refine upsertRun_of_lookup about (.byId byId.keyed) (fun v => Or.inr ⟨_, ?_, rfl⟩) perform s
    unfold writeById
    split
    · next nothing => exact .createById byId.keyed nothing
    · next something => exact .updateById byId.keyed (Bool.eq_false_iff.mpr something)
  · have tabled := RecordId.requireTable_eq_ok.mp byColumns.tabled
    have about : About target data body named table :=
      ⟨Record.require_eq_ok.mp byColumns.shaped, byColumns.own, tabled⟩
    obtain ⟨values, each, rfl⟩ := keyFilters_eq_ok_iff.mp byColumns.filtered
    have some_condition : keys.zip values ≠ [] := by
      cases each with
      | nil => exact absurd rfl byColumns.columns.1
      | cons _ _ => exact List.cons_ne_nil _ _
    rw [same, selectText_lookup table some_condition]
    refine upsertRun_of_lookup about (.byColumns byColumns.columns each) (fun v => ?_) perform s
    rcases settle_cases named table body v with
      ⟨id, cause, found, other, stopped⟩
      | ⟨c, goes, ⟨nothing, rfl⟩ | ⟨id, existing, found, own, rfl⟩⟩
    · exact Or.inl ⟨cause, ⟨byColumns.columns, id, found, other⟩, stopped⟩
    · exact Or.inr ⟨_, .createByColumns byColumns.columns nothing, goes⟩
    · obtain ⟨row, rest, rows, text⟩ := foundId?_eq_some found
      have well : named.WellFormed := RecordId.parse_wellFormed byColumns.own
      exact Or.inr ⟨_, .updateByColumns byColumns.columns rows text own
        (table_of_parse well tabled own), goes⟩

theorem exchanges_request_bind {σ : Type} (perform : Perform σ) (c : Call) (next : Json → Plan Json)
    (s : σ) : (run perform (request c >>= next) s).exchanges ≠ [] := by
  rcases reply : perform c s with ⟨e | v, t⟩
  · rw [run_request_bind_error reply]
    exact List.cons_ne_nil _ _
  · rw [run_request_bind_ok reply]
    exact List.cons_ne_nil _ _

theorem exchanges_upsert_eq_nil_iff {σ : Type} (perform : Perform σ) (target : String) (data : Json)
    (keys : List String) (s : σ) :
    (run perform (upsert target data keys) s).exchanges = [] ↔ ¬ Ready target data keys := by
  constructor
  · rintro silent ⟨body, named, table, about, needs⟩
    have shaped := Record.require_eq_ok.mpr about.content
    have tabled := RecordId.requireTable_eq_ok.mpr about.tabled
    rcases needs with ⟨keyed, given⟩ | ⟨columns, plain, values, each⟩
    · obtain ⟨id, given⟩ := Option.isSome_iff_exists.mp given
      have byId : ById target data keys body named table :=
        ⟨shaped, keyed, about.own, tabled, id, by rw [RecordId.requireId, given]⟩
      rw [upsert_of_byId byId] at silent
      exact exchanges_request_bind perform _ _ s silent
    · have byColumns : ByColumns target data keys body named table _ :=
        ⟨shaped, plain, columns, about.own, tabled, keyFilters_eq_ok_iff.mpr ⟨values, each, rfl⟩⟩
      rw [upsert_of_byColumns byColumns] at silent
      exact exchanges_request_bind perform _ _ s silent
  · intro unready
    rcases upsert_cases target data keys with
      ⟨cause, same⟩ | ⟨body, named, table, byId, -⟩ |
      ⟨body, named, table, filters, byColumns, -⟩
    · rw [same]
      rfl
    · obtain ⟨id, given⟩ := byId.identified
      refine absurd ⟨body, named, table, ⟨Record.require_eq_ok.mp byId.shaped, byId.own,
        RecordId.requireTable_eq_ok.mp byId.tabled⟩, Or.inl ⟨byId.keyed, ?_⟩⟩ unready
      cases own : named.id with
      | none =>
        rw [RecordId.requireId, own] at given
        cases given
      | some _ => rfl
    · obtain ⟨values, each, -⟩ := keyFilters_eq_ok_iff.mp byColumns.filtered
      exact absurd ⟨body, named, table, ⟨Record.require_eq_ok.mp byColumns.shaped, byColumns.own,
        RecordId.requireTable_eq_ok.mp byColumns.tabled⟩,
        Or.inr ⟨byColumns.columns, byColumns.plain, values, each⟩⟩ unready

theorem isEmpty_iff_of_rows {v row : Json} {rest : List Json} (found : Query.rows v = row :: rest) :
    v.isEmpty = true ↔ v = .object [] := by
  match v with
  | .null | .array [] => cases found
  | .object [] => exact iff_of_true rfl rfl
  | .bool _ | .number _ | .string _ | .array (_ :: _) | .object (_ :: _) =>
    exact iff_of_false (by simp [Json.isEmpty]) (by simp)

theorem Write.target {keys : List String} {body : Record} {named : RecordId} {table : String}
    {v : Json} {write : Call} (h : Write keys body named table v write)
    (tabled : named.table = some table) :
    ∃ t, t.table = some table ∧
      (write = .create t body ∨ (write = .update t body ∧ v.isEmpty = false)) := by
  cases h with
  | createById => exact ⟨named, tabled, Or.inl rfl⟩
  | updateById _ something => exact ⟨named, tabled, Or.inr ⟨rfl, something⟩⟩
  | createByColumns => exact ⟨named, tabled, Or.inl rfl⟩
  | @updateByColumns row rest id existing _ found text _ own =>
    refine ⟨existing, own, Or.inr ⟨rfl, ?_⟩⟩
    rw [Bool.eq_false_iff, ne_eq, isEmpty_iff_of_rows found]
    rintro rfl
    cases found
    cases text

/-- An upsert makes at most two calls, and none exactly when it lacks what it needs; then it is
refused. The first looks up the record that target and data name, by that record or by a query with
a condition for each key; if it fails, nothing is written. A second call writes the data as it is to
a record of the same table: it creates the record that was named, or updates what was found; its
reply is the result, and without it the result is an error. -/
theorem upsert_reads_then_writes {σ : Type} {perform : Perform σ} {s : σ} {target : String}
    {data : Json} {keys : List String} {o : Outcome σ Json}
    (ran : run perform (upsert target data keys) s = o) :
    o.exchanges.length ≤ 2 ∧
    (∀ v, o.result = .ok v → o.exchanges.length = 2) ∧
    (o.exchanges = [] ↔ ¬ Ready target data keys) ∧
    (o.exchanges = [] → ∃ cause, o.result = .error (.refusal cause)) ∧
    ∀ read reply later, o.exchanges = (read, reply) :: later →
      ∃ body named table, About target data body named table ∧
        Lookup keys body named table read ∧
        ((later = [] ∧ ∃ e, o.result = .error e) ∨
          ∃ v write t, reply = .ok v ∧ later = [(write, o.result)] ∧
            Write keys body named table v write ∧ t.table = some table ∧
            (write = .create t body ∨ (write = .update t body ∧ v.isEmpty = false))) := by
  have needs := exchanges_upsert_eq_nil_iff perform target data keys s
  rw [ran] at needs
  obtain ⟨result, exchanges, state⟩ := o
  have shape : UpsertRun target data keys result exchanges := upsertRun ran
  cases shape with
  | refused cause =>
    refine ⟨Nat.zero_le _, ?_, needs, fun _ => ⟨cause, rfl⟩, ?_⟩
    · rintro v ⟨⟩
    · rintro read reply later ⟨⟩
  | @unread body named table read e about looks =>
    refine ⟨Nat.le_succ _, ?_, needs, nofun, ?_⟩
    · rintro v ⟨⟩
    · rintro read reply later ⟨⟩
      exact ⟨body, named, table, about, looks, Or.inl ⟨rfl, e, rfl⟩⟩
  | @stray body named table read v cause about looks other =>
    refine ⟨Nat.le_succ _, ?_, needs, nofun, ?_⟩
    · rintro v ⟨⟩
    · rintro read reply later ⟨⟩
      exact ⟨body, named, table, about, looks, Or.inl ⟨rfl, _, rfl⟩⟩
  | @written body named table read write v _ about looks writes =>
    refine ⟨Nat.le_refl _, fun _ _ => rfl, needs, nofun, ?_⟩
    rintro read reply later ⟨⟩
    obtain ⟨t, tabled, called⟩ := writes.target about.tabled
    exact ⟨body, named, table, about, looks,
      Or.inr ⟨v, write, t, rfl, rfl, writes, tabled, called⟩⟩

def sampleFound : Json := .array [.object [("id", .string "t:y")]]

def sampleById : Outcome Recorder Json :=
  run Recorder.perform (upsert "t" (.object [("a", .ofNat 1), ("id", .string "x")]) ["a", "id"])
    ⟨[.ok sampleFound]⟩

/-- Of two keys that are looked up, one is the id. -/
theorem sampleById_reads_then_writes :
    sampleById.exchanges.map Prod.fst =
        [.query "SELECT id FROM t WHERE (a = 1 AND id = 't:x') LIMIT 1",
          .update ⟨some "t", some "y"⟩ ⟨[("a", .ofNat 1), ("id", .string "x")]⟩] ∧
      ∃ body named table, named.table = some table ∧
        Lookup ["a", "id"] body named table
          (.query "SELECT id FROM t WHERE (a = 1 AND id = 't:x') LIMIT 1") := by
  have calls : sampleById.exchanges =
      (.query "SELECT id FROM t WHERE (a = 1 AND id = 't:x') LIMIT 1", .ok sampleFound) ::
        [(.update ⟨some "t", some "y"⟩ ⟨[("a", .ofNat 1), ("id", .string "x")]⟩,
          .ok (.array []))] := rfl
  obtain ⟨-, -, -, -, each⟩ := upsert_reads_then_writes (o := sampleById) rfl
  obtain ⟨body, named, table, about, looks, -⟩ := each _ _ _ calls
  exact ⟨by rw [calls]; rfl, body, named, table, about.tabled, looks⟩

/-! ### Records that were found -/

/-- An upsert takes the reply to its look-up for none. -/
def Overlooked (keys : List String) (v : Json) : Prop :=
  (keys = [] ∧ v = .object []) ∨ (keys ≠ [] ∧ foundId? v = none)

/-- The record that is written is the one that was read, or the one that the first row found has the
id of. -/
def Matched (read : Call) (row : Json) (existing : RecordId) : Prop :=
  read = .select existing ∨ ∃ id, row.field? "id" = some id ∧ id.Names existing

theorem names_iff_of_parse {table text : String} {v : Json} {existing : RecordId}
    (shown : v.idText? = some text)
    (h : RecordId.parse (some table) (some text) = .ok existing) :
    v.Names existing ↔ v.givesId = true := by
  have own : RecordId.forRecord table ⟨[("id", v)]⟩ = .ok existing := by
    have field : (⟨[("id", v)]⟩ : Record).get? "id" = some v := rfl
    rw [RecordId.forRecord, field, Option.bind_some, shown]
    exact h
  exact RecordId.names_iff_givesId own rfl

/-- Where a look-up found something, an upsert creates another record exactly when the first row
found has no id that is a string or a number, or when there are no keys and what was found is an
empty object. Otherwise it is refused, or updates one record; this has the id of the row that was
found exactly when there is an id in it. -/
theorem upsert_creates_beside_match_iff {σ : Type} {perform : Perform σ} {s : σ} {target : String}
    {data : Json} {keys : List String} {o : Outcome σ Json}
    (ran : run perform (upsert target data keys) s = o) (other : keys ≠ idKeys) {read : Call}
    {v row : Json} {rest : List Json} {later : List (Call × Reply)}
    (looked : o.exchanges = (read, .ok v) :: later) (found : Query.rows v = row :: rest) :
    ((∃ t body reply, later = [(.create t body, reply)]) ↔ Overlooked keys v) ∧
    (Overlooked keys v ∨ (later = [] ∧ ∃ cause, o.result = .error (.refusal cause)) ∨
      ∃ existing body, later = [(.update existing body, o.result)] ∧
        (Matched read row existing ↔
          keys = [] ∨ ∃ id, row.field? "id" = some id ∧ id.givesId = true)) := by
  obtain ⟨result, exchanges, state⟩ := o
  have shape : UpsertRun target data keys result exchanges := upsertRun ran
  have looked : exchanges = (read, .ok v) :: later := looked
  cases shape with
  | refused | unread => cases looked
  | @stray body named table read v cause about looks stray =>
    cases looked
    obtain ⟨columns, id, text, -⟩ := stray
    have seen : ¬ Overlooked keys v := by
      rintro (⟨none, -⟩ | ⟨-, nothing⟩)
      · exact columns.1 none
      · cases nothing.symm.trans text
    refine ⟨iff_of_false ?_ seen, Or.inr (Or.inl ⟨rfl, cause, rfl⟩)⟩
    rintro ⟨t, body, reply, ⟨⟩⟩
  | @written body named table read write v _ about looks writes =>
    cases looked
    cases writes with
    | createById keyed nothing =>
      have overlooked : Overlooked keys v :=
        Or.inl ⟨keyed.resolve_right other, (isEmpty_iff_of_rows found).mp nothing⟩
      exact ⟨iff_of_true ⟨named, body, result, rfl⟩ overlooked, Or.inl overlooked⟩
    | createByColumns columns nothing =>
      have overlooked : Overlooked keys v := Or.inr ⟨columns.1, nothing⟩
      exact ⟨iff_of_true ⟨named, body, result, rfl⟩ overlooked, Or.inl overlooked⟩
    | updateById keyed something =>
      have seen : ¬ Overlooked keys v := by
        rintro (⟨-, rfl⟩ | ⟨columns, -⟩)
        · cases something
        · exact columns (keyed.resolve_right other)
      refine ⟨iff_of_false ?_ seen, Or.inr (Or.inr ⟨named, body, rfl, ?_⟩)⟩
      · rintro ⟨t, body, reply, ⟨⟩⟩
      · cases looks with
        | byId => exact iff_of_true (Or.inl rfl) (Or.inl (keyed.resolve_right other))
        | byColumns columns => exact absurd keyed (not_or.mpr columns)
    | @updateByColumns first more id existing columns rows text own _ =>
      obtain ⟨rfl, rfl⟩ := List.cons.inj (rows.symm.trans found)
      obtain ⟨field, given, shown⟩ := Option.bind_eq_some_iff.mp text
      have seen : ¬ Overlooked keys v := by
        rintro (⟨none, -⟩ | ⟨-, nothing⟩)
        · exact columns.1 none
        · rw [foundId?, rows, List.head?_cons, Option.bind_some, text] at nothing
          cases nothing
      refine ⟨iff_of_false ?_ seen, Or.inr (Or.inr ⟨existing, body, rfl, ?_⟩)⟩
      · rintro ⟨t, body, reply, ⟨⟩⟩
      · have names := names_iff_of_parse shown own
        cases looks with
        | byId keyed => exact absurd keyed (not_or.mpr columns)
        | byColumns => simp [Matched, columns.1, given, names]

/-- An upsert of one row by its only column, after a reply to the look-up. -/
def sampleUpsert (reply : Json) : Outcome Recorder Json :=
  run Recorder.perform (upsert "t" (.object [("a", .ofNat 1)]) ["a"]) ⟨[.ok reply]⟩

theorem sampleUpsert_spares_match :
    ["a"] ≠ idKeys ∧ Query.rows sampleFound = [.object [("id", .string "t:y")]] ∧
      (sampleUpsert sampleFound).exchanges.tail =
        [(.update ⟨some "t", some "y"⟩ ⟨[("a", .ofNat 1)]⟩, .ok (.array []))] ∧
      ¬ Overlooked ["a"] sampleFound ∧
      ¬ ∃ t body reply, (sampleUpsert sampleFound).exchanges.tail = [(.create t body, reply)] := by
  have looked : (sampleUpsert sampleFound).exchanges =
      (.query "SELECT id FROM t WHERE (a = 1) LIMIT 1", .ok sampleFound) ::
        [(.update ⟨some "t", some "y"⟩ ⟨[("a", .ofNat 1)]⟩, .ok (.array []))] := rfl
  have seen : ¬ Overlooked ["a"] sampleFound := by
    rintro (⟨⟨⟩, -⟩ | ⟨-, ⟨⟩⟩)
  have creates := upsert_creates_beside_match_iff (o := sampleUpsert sampleFound) rfl (by decide)
    looked rfl
  exact ⟨by decide, rfl, rfl, seen, mt creates.1.mp seen⟩

/-- The look-up found a record, but its row does not show the id: the record is created again. -/
theorem upsert_duplicates_match :
    Query.rows (.array [.object [("name", .string "x")]]) = [.object [("name", .string "x")]] ∧
      (sampleUpsert (.array [.object [("name", .string "x")]])).exchanges =
        [(.query "SELECT id FROM t WHERE (a = 1) LIMIT 1",
            .ok (.array [.object [("name", .string "x")]])),
          (.create { table := some "t" } ⟨[("a", .ofNat 1)]⟩, .ok (.array []))] :=
  ⟨rfl, rfl⟩

end RecordClient.Connection
