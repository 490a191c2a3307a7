import RecordClient.Proofs.Connection.Target
import RecordClient.Proofs.Connection.Upsert
/-!
# Whether a record exists

A query that finds a record by its id and an upsert of that record both read it first, and each has
a test of its own for a reply without a record. The tests differ on the empty object alone:
`find_agrees_with_upsert_iff`.
-/
namespace RecordClient

open Plan

/-! ### Replies without a record -/

theorem Query.head?_rows_eq_none_iff {v : Json} :
    (rows v).head? = none ↔ v = .null ∨ v = .array [] := by
  match v with
  | .null | .array [] => simp [rows]
  | .array (_ :: _) | .object _ | .bool _ | .number _ | .string _ => simp [rows]

/-- Only the empty object is a row and yet counts as empty. -/
theorem Json.isEmpty_iff {v : Json} :
    v.isEmpty = true ↔ (Query.rows v).head? = none ∨ v = .object [] := by
  cases found : Query.rows v with
  | nil =>
    have nothing : (Query.rows v).head? = none := by rw [found]; rfl
    rcases Query.head?_rows_eq_none_iff.mp nothing with rfl | rfl
    · simp [Json.isEmpty]
    · simp [Json.isEmpty]
  | cons row rest =>
    rw [Connection.isEmpty_iff_of_rows found]
    simp

/-! ### Tokens of one record -/

namespace RecordId

/-- A part of a token that stands for itself. -/
def PlainPart (t : String) : Prop := t ≠ "" ∧ separator ∉ t.toList

variable {table id : String} (tabled : PlainPart table) (named : PlainPart id)
include tabled named

theorem wellFormed_of_plain : WellFormed ⟨some table, some id⟩ := by
  constructor
  · rintro _ ⟨⟩
    exact tabled
  · rintro _ ⟨⟩
    exact named.1

theorem parse_of_plain : parse (some table) (some id) = .ok ⟨some table, some id⟩ := by
  have left : ofTableToken table = { table := some table } := by
    rw [ofTableToken, cut_of_plain tabled.2]
    simp [nonEmpty?, tabled.1]
  have right : ofIdToken id = { id := some id } := by
    rw [ofIdToken, cut_of_plain named.2]
    simp [nonEmpty?, named.1]
  rw [parse, Option.elim_some, Option.elim_some, left, right]
  rfl

theorem forRecord_of_plain {body : Record} (free : body.get? "id" = none) :
    forRecord (table ++ ":" ++ id) body = .ok ⟨some table, some id⟩ := by
  have token : raw ⟨some table, some id⟩ = table ++ ":" ++ id := rfl
  rw [forRecord, free, Option.bind_none, ← token]
  exact parse_raw (wellFormed_of_plain tabled named) rfl

end RecordId

/-! ### Both operations -/

namespace Connection

variable {σ : Type}

def Updates (o : Outcome σ Json) : Prop :=
  ∃ target body reply, (Call.update target body, reply) ∈ o.exchanges

def Creates (o : Outcome σ Json) : Prop :=
  ∃ target body reply, (Call.create target body, reply) ∈ o.exchanges

theorem exchanges_upsert_of_byId {perform : Perform σ} {s t : σ} {target : String} {data v : Json}
    {keys : List String} {body : Record} {named : RecordId} {table : String}
    (byId : ById target data keys body named table)
    (read : perform (.select named) s = (.ok v, t)) :
    ∃ reply, (run perform (upsert target data keys) s).exchanges =
      [(.select named, .ok v), (writeById named body v, reply)] := by
  rw [upsert_of_byId byId, run_request_bind_ok read]
  exact ⟨(perform (writeById named body v) t).1, rfl⟩

theorem written_iff {o : Outcome σ Json} {named : RecordId} {body : Record} {v : Json}
    {reply : Reply}
    (written : o.exchanges = [(.select named, .ok v), (writeById named body v, reply)]) :
    (Updates o ↔ v.isEmpty = false) ∧ (Creates o ↔ v.isEmpty = true) := by
  unfold Updates Creates
  rw [written]
  cases empty : v.isEmpty <;> simp [writeById, empty]

/-- A bound query finds a record by its id exactly when an upsert of the record by its id updates
it, and finds none exactly when the upsert creates it, unless the reply to reading the record is
the empty object: this is found, and yet the upsert creates the record. -/
theorem find_agrees_with_upsert_iff {perform : Perform σ} {s s' t t' : σ} {q : Query} {id : String}
    {body : Record} {keys : List String} {v : Json} {found : Outcome σ (Option Json)}
    {put : Outcome σ Json} (bound : q.bound = true) (tabled : RecordId.PlainPart q.table)
    (named : RecordId.PlainPart id) (free : body.get? "id" = none)
    (keyed : keys = [] ∨ keys = idKeys)
    (read : perform (.select ⟨some q.table, some id⟩) s = (.ok v, t))
    (again : perform (.select ⟨some q.table, some id⟩) s' = (.ok v, t'))
    (sought : run perform (q.find id) s = found)
    (ran : run perform (upsert (q.table ++ ":" ++ id) body.toJson keys) s' = put) :
    ((((∃ row, found.result = .ok (some row)) ↔ Updates put) ∧
        (found.result = .ok none ↔ Creates put)) ↔ v ≠ .object []) ∧
      (v = .object [] → found.result = .ok (some v) ∧ Creates put ∧ ¬ Updates put) := by
  subst sought ran
  -- The upsert has one token for what the query has a table and an id, and names the same record.
  have byId : ById (q.table ++ ":" ++ id) body.toJson keys body ⟨some q.table, some id⟩ q.table :=
    { shaped := Record.require_eq_ok.mpr rfl
      keyed
      own := RecordId.forRecord_of_plain tabled named free
      tabled := rfl
      identified := ⟨id, rfl⟩ }
  obtain ⟨reply, written⟩ := exchanges_upsert_of_byId byId again
  obtain ⟨updates, creates⟩ := written_iff written
  have seen : (run perform (q.find id) s).result = .ok (Query.rows v).head? := by
    rw [Query.find_of_record bound (RecordId.parse_of_plain tabled named), Query.pick,
      run_map_request, read]
    rfl
  have present : (∃ row, (run perform (q.find id) s).result = .ok (some row)) ↔
      (Query.rows v).head? ≠ none := by
    rw [seen, Option.ne_none_iff_exists']
    simp
  have absent : (run perform (q.find id) s).result = .ok none ↔ (Query.rows v).head? = none := by
    rw [seen]
    simp
  constructor
  · rw [present, absent, updates, creates]
    constructor
    · rintro ⟨-, same⟩ rfl
      cases same.mpr rfl
    · intro other
      have same : v.isEmpty = true ↔ (Query.rows v).head? = none :=
        Json.isEmpty_iff.trans (or_iff_left other)
      refine ⟨?_, same.symm⟩
      rw [Ne, ← same, Bool.not_eq_true]
  · rintro rfl
    exact ⟨seen, creates.mpr rfl, fun updated => by cases updates.mp updated⟩

def sampleUnnamed : Record := ⟨[("a", .ofNat 1)]⟩

def sampleSought (reply : Json) : Outcome Recorder (Option Json) :=
  run Recorder.perform ((Query.ofConnection "t").find "1") ⟨[.ok reply]⟩

def samplePut (reply : Json) : Outcome Recorder Json :=
  run Recorder.perform (upsert "t:1" sampleUnnamed.toJson idKeys) ⟨[.ok reply]⟩

theorem sampleSought_agrees_with_samplePut :
    RecordId.PlainPart "t" ∧ RecordId.PlainPart "1" ∧ sampleUnnamed.get? "id" = none ∧
      ((∃ row, (sampleSought (.array [.null])).result = .ok (some row)) ↔
        Updates (samplePut (.array [.null]))) ∧
      ((sampleSought (.array [.null])).result = .ok none ↔
        Creates (samplePut (.array [.null]))) := by
  have tabled : RecordId.PlainPart "t" := ⟨by decide, by decide⟩
  have named : RecordId.PlainPart "1" := ⟨by decide, by decide⟩
  have free : sampleUnnamed.get? "id" = none := rfl
  have ran : run Recorder.perform (upsert "t:1" sampleUnnamed.toJson idKeys)
      ⟨[.ok (.array [.null])]⟩ = samplePut (.array [.null]) := rfl
  have agrees := find_agrees_with_upsert_iff (q := .ofConnection "t") (v := .array [.null])
    rfl tabled named free (Or.inr rfl) rfl rfl (Eq.refl (sampleSought (.array [.null]))) ran
  exact ⟨tabled, named, free, agrees.1.mpr nofun⟩

/-- The reply is an object without fields. -/
theorem upsert_recreates_found :
    (sampleSought (.object [])).result = .ok (some (.object [])) ∧
      (samplePut (.object [])).exchanges =
        [(.select ⟨some "t", some "1"⟩, .ok (.object [])),
          (.create ⟨some "t", some "1"⟩ sampleUnnamed, .ok (.array []))] :=
  ⟨rfl, rfl⟩

end Connection

end RecordClient
