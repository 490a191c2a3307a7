import RecordClient.Connection.Recorder
import RecordClient.Proofs.Connection.Run
/-!
# Refusals

A refusal is meant to come before anything is sent. `refusedLate_iff` says what is refused after a
call was made: what the wire itself refuses, a row of a list behind rows that were created, and a
record that a look-up by columns found in another table.
-/
namespace RecordClient

namespace Plan

variable {α β σ : Type}

/-! ### Outcomes -/

namespace Outcome

def IsRefused (o : Outcome σ α) : Prop := ∃ e, o.result = .error (.refusal e)

/-- The last call was refused by the wire. -/
def RefusedByWire (o : Outcome σ α) : Prop :=
  ∃ c e, o.exchanges.getLast? = some (c, .error (.refusal e))

/-- Refused with a call made before. -/
def RefusedLate (o : Outcome σ α) : Prop := o.IsRefused ∧ o.exchanges ≠ []

theorem RefusedByWire.exchanges_ne_nil {o : Outcome σ α} (h : o.RefusedByWire) :
    o.exchanges ≠ [] := by
  obtain ⟨c, e, last⟩ := h
  intro nothing
  rw [nothing] at last
  cases last

theorem not_isRefused_of_ok {o : Outcome σ α} {a : α} (fine : o.result = .ok a) :
    ¬ o.IsRefused := by
  rintro ⟨e, refused⟩
  rw [fine] at refused
  cases refused

theorem isRefused_iff_of_error {o : Outcome σ α} {e : Error} (failed : o.result = .error e) :
    o.IsRefused ↔ ∃ cause, e = .refusal cause := by
  unfold IsRefused
  rw [failed]
  simp

theorem refusedByWire_behind {o : Outcome σ α} {before : List (Call × Reply)}
    (own : ∀ c e, before.getLast? ≠ some (c, .error (.refusal e))) :
    (o.behind before).RefusedByWire ↔ o.RefusedByWire := by
  have last : (o.behind before).exchanges.getLast? = o.exchanges.getLast?.or before.getLast? :=
    List.getLast?_append
  unfold RefusedByWire
  rw [last]
  cases o.exchanges.getLast? with
  | none => simpa using own
  | some x => rfl

end Outcome

open Outcome

/-! ### Plans that refuse in time -/

/-- A plan that refuses nothing but what the wire refuses. -/
def Relays (p : Plan α) : Prop :=
  ∀ (σ : Type) (perform : Perform σ) (s : σ),
    (run perform p s).IsRefused ↔ (run perform p s).RefusedByWire

/-- A plan that refuses nothing of its own once a call was made. -/
def Prompt (p : Plan α) : Prop :=
  ∀ (σ : Type) (perform : Perform σ) (s : σ),
    (run perform p s).RefusedLate ↔ (run perform p s).RefusedByWire

theorem Relays.prompt {p : Plan α} (h : Relays p) : Prompt p := by
  intro σ perform s
  constructor
  · rintro ⟨refused, -⟩
    exact (h σ perform s).mp refused
  · intro refused
    exact ⟨(h σ perform s).mpr refused, refused.exchanges_ne_nil⟩

theorem prompt_done (result : Except Error α) : Prompt (.done result) := by
  intro σ perform s
  constructor
  · rintro ⟨-, sent⟩
    exact absurd rfl sent
  · intro refused
    exact absurd rfl refused.exchanges_ne_nil

theorem prompt_fail (e : Error) : Prompt (fail e : Plan α) := prompt_done _

theorem relays_request (c : Call) : Relays (request c) := by
  intro σ perform s
  constructor
  · rintro ⟨e, refused⟩
    exact ⟨c, e, congrArg (fun reply => some (c, reply)) refused⟩
  · rintro ⟨d, e, last⟩
    exact ⟨e, congrArg Prod.snd (Option.some.inj last)⟩

theorem Relays.bind {p : Plan α} {f : α → Plan β} (first : Relays p) (later : ∀ a, Relays (f a)) :
    Relays (p >>= f) := by
  intro σ perform s
  have own := first σ perform s
  rcases run_bind perform p f s with ⟨a, fine, split⟩ | ⟨e, failed, split⟩
  · -- `p` was not refused, so its last call was not either, and `f` decides alone.
    have passed := not_isRefused_of_ok fine
    rw [split, refusedByWire_behind fun c e last => passed (own.mpr ⟨c, e, last⟩)]
    exact later a σ perform _
  · rw [split, isRefused_iff_of_error rfl, ← isRefused_iff_of_error failed]
    exact own

theorem refusedLate_map (perform : Perform σ) (p : Plan α) (g : α → β) (s : σ) :
    ((run perform (g <$> p) s).RefusedLate ↔ (run perform p s).RefusedLate) ∧
      ((run perform (g <$> p) s).RefusedByWire ↔ (run perform p s).RefusedByWire) := by
  rw [run_map]
  refine ⟨and_congr ?_ Iff.rfl, Iff.rfl⟩
  unfold IsRefused
  cases (run perform p s).result <;> simp [Except.map]

theorem Prompt.map {p : Plan α} (h : Prompt p) (g : α → β) : Prompt (g <$> p) := by
  intro σ perform s
  obtain ⟨late, wire⟩ := refusedLate_map perform p g s
  rw [late, wire]
  exact h σ perform s

theorem Single.prompt {p : Plan α} (h : Single p) : Prompt p := by
  cases h with
  | done result => exact prompt_done result
  | call c f => exact (relays_request c).prompt.map f

end Plan

open Plan Plan.Outcome

namespace Connection

/-! ### Lists of rows -/

/-- The rows of a list were created up to one that is refused. -/
inductive RefusedRow (table : String) : List Json → List (Call × Reply) → Prop
  | here {row : Json} {rest : List Json} {cause : Refusal}
      (bad : rowTarget table row = .error cause) : RefusedRow table (row :: rest) []
  | later {row v : Json} {rest : List Json} {target : RecordId} {body : Record}
      {exchanges : List (Call × Reply)} (good : rowTarget table row = .ok (target, body))
      (further : RefusedRow table rest exchanges) :
      RefusedRow table (row :: rest) ((.create target body, .ok v) :: exchanges)

theorem RowsRun.refused_iff {table : String} {rows : List Json} {result : Except Error (List Json)}
    {exchanges : List (Call × Reply)} (h : RowsRun table rows result exchanges) :
    (∃ e, result = .error (.refusal e)) ↔
      (∃ c e, exchanges.getLast? = some (c, .error (.refusal e))) ∨
        RefusedRow table rows exchanges := by
  induction h with
  | done =>
    refine iff_of_false (by simp) ?_
    rintro (⟨c, e, last⟩ | refused)
    · cases last
    · cases refused
  | @refused row rest cause bad => exact iff_of_true ⟨cause, rfl⟩ (Or.inr (.here bad))
  | @failed row rest target body e good =>
    have created : ¬ RefusedRow table (row :: rest) [(.create target body, .error e)] := by
      intro refused
      cases refused
    simp [created]
  | @created row v rest target body result exchanges good later ih =>
    have ahead : RefusedRow table (row :: rest) ((.create target body, .ok v) :: exchanges) ↔
        RefusedRow table rest exchanges := by
      refine ⟨fun refused => ?_, fun refused => .later good refused⟩
      cases refused with
      | later _ further => exact further
    have same : (∃ e, result.map (v :: ·) = .error (.refusal e)) ↔
        ∃ e, result = .error (.refusal e) := by
      cases result <;> simp [Except.map]
    -- The call that succeeded is the last one only when there is no other.
    rw [ahead, same, ih, List.getLast?_cons]
    cases exchanges.getLast? with
    | none => simp
    | some x => simp

theorem refusedLate_createRows {σ : Type} (perform : Perform σ) (table : String) (rows : List Json)
    (s : σ) : (run perform (createRows table rows) s).RefusedLate ↔
      (run perform (createRows table rows) s).RefusedByWire ∨
        RefusedRow table rows (run perform (createRows table rows) s).exchanges ∧
          (run perform (createRows table rows) s).exchanges ≠ [] := by
  have refused := (rowsRun perform table rows s).refused_iff
  constructor
  · rintro ⟨late, sent⟩
    exact (refused.mp late).imp id fun row => ⟨row, sent⟩
  · rintro (wire | ⟨row, sent⟩)
    · exact ⟨refused.mpr (Or.inl wire), wire.exchanges_ne_nil⟩
    · exact ⟨refused.mpr (Or.inr row), sent⟩

/-- A list of which some rows were created before one is refused. -/
def RefusedList (table : String) (data : Json) (exchanges : List (Call × Reply)) : Prop :=
  ∃ rows, data = .array rows ∧ RefusedRow table rows exchanges ∧ exchanges ≠ []

theorem refusedLate_create {σ : Type} (perform : Perform σ) (table : String) (data : Json) (s : σ) :
    (run perform (create table data) s).RefusedLate ↔
      (run perform (create table data) s).RefusedByWire ∨
        RefusedList table data (run perform (create table data) s).exchanges := by
  have single (row : Json) (other : ∀ rows, row ≠ .array rows) (o : Outcome σ Json)
      (prompt : o.RefusedLate ↔ o.RefusedByWire) :
      o.RefusedLate ↔ o.RefusedByWire ∨ RefusedList table row o.exchanges := by
    rw [prompt, or_iff_left]
    rintro ⟨rows, same, -⟩
    exact other rows same
  match data with
  | .array rows =>
    have mapped : create table (.array rows) = Json.array <$> createRows table rows := rfl
    obtain ⟨late, wire⟩ := refusedLate_map perform (createRows table rows) Json.array s
    rw [mapped, late, wire, refusedLate_createRows, run_map]
    simp [RefusedList]
  | .null | .bool _ | .number _ | .string _ | .object _ =>
    exact single _ (by simp) _ ((single_createRow table _).prompt σ perform s)

/-! ### Records found by columns -/

/-- The record that the columns found is refused, being one of another table. -/
def RefusedMatch (target : String) (data : Json) (keys : List String)
    (exchanges : List (Call × Reply)) : Prop :=
  ∃ body named table filters v id cause, ByColumns target data keys body named table filters ∧
    foundId? v = some id ∧ RecordId.parse (some table) (some id) = .error cause ∧
    exchanges = [(.query (lookup table filters).selectText, .ok v)]

theorem RefusedMatch.replies {target : String} {data : Json} {keys : List String}
    {exchanges : List (Call × Reply)} (h : RefusedMatch target data keys exchanges) :
    ∃ v, exchanges.map Prod.snd = [.ok v] := by
  obtain ⟨_, _, _, _, v, _, _, -, -, -, single⟩ := h
  exact ⟨v, congrArg (List.map Prod.snd) single⟩

theorem refusedLate_upsert {σ : Type} (perform : Perform σ) (target : String) (data : Json)
    (keys : List String) (s : σ) :
    (run perform (upsert target data keys) s).RefusedLate ↔
      (run perform (upsert target data keys) s).RefusedByWire ∨
        RefusedMatch target data keys (run perform (upsert target data keys) s).exchanges := by
  rcases upsert_cases target data keys with
    ⟨e, same⟩ | ⟨body, named, table, byId, same⟩ | ⟨body, named, table, filters, byColumns, same⟩
  · rw [same, prompt_fail _ σ perform s, or_iff_left]
    intro matched
    obtain ⟨v, replies⟩ := matched.replies
    cases replies
  · have relays := (relays_request (.select named)).bind fun v =>
      relays_request (writeById named body v)
    rw [same, relays.prompt σ perform s, or_iff_left]
    rintro ⟨_, _, _, _, _, _, _, byColumns, -⟩
    exact absurd byId.keyed (not_or.mpr byColumns.columns)
  rw [same]
  rcases reply : perform (.query (lookup table filters).selectText) s with ⟨e | v, t⟩
  · have relayed := (relays_request (.query (lookup table filters).selectText)).prompt σ perform s
    rw [request, run_call, reply] at relayed
    rw [run_request_bind_error reply, or_iff_left]
    · exact relayed
    · intro matched
      obtain ⟨v, replies⟩ := matched.replies
      cases replies
  rw [run_request_bind_ok reply]
  rcases settle_cases named table body v with ⟨id, cause, found, other, stopped⟩ | ⟨c, goes, -⟩
  · rw [stopped]
    refine iff_of_true ⟨⟨cause, rfl⟩, List.cons_ne_nil _ _⟩ (Or.inr ?_)
    exact ⟨body, named, table, filters, v, id, cause, byColumns, found, other, rfl⟩
  · -- A second call was made, which a refused match does not have.
    rw [goes, or_iff_left, refusedByWire_behind, ← relays_request c σ perform t]
    · exact and_iff_left (List.cons_ne_nil _ _)
    · intro d e last
      cases congrArg (Option.map Prod.snd) last
    · intro matched
      obtain ⟨_, replies⟩ := matched.replies
      cases replies

end Connection

/-! ### All operations and runs -/

/-- What an operation refuses after its first call. -/
def Connection.Operation.RefusedBetween (exchanges : List (Call × Reply)) : Operation → Prop
  | .create table data | .insert table data => RefusedList table data exchanges
  | .upsert target data keys => RefusedMatch target data keys exchanges
  | _ => False

/-- What a run of a query refuses after its first call. -/
def Query.Run.RefusedBetween (q : Query) (exchanges : List (Call × Reply)) : Run → Prop
  | .insert data => Connection.RefusedList q.table data exchanges
  | _ => False

theorem Connection.refusedLate_plan {σ : Type} (perform : Perform σ) (s : σ) (op : Operation) :
    (run perform op.plan s).RefusedLate ↔
      (run perform op.plan s).RefusedByWire ∨
        op.RefusedBetween (run perform op.plan s).exchanges := by
  have prompt {p : Plan Json} (h : Prompt p) : (run perform p s).RefusedLate ↔
      (run perform p s).RefusedByWire ∨ False := (h σ perform s).trans (or_iff_left id).symm
  match op with
  | .create table data | .insert table data => exact refusedLate_create perform table data s
  | .upsert target data keys => exact refusedLate_upsert perform target data keys s
  | .get table id => exact prompt (single_get table id).prompt
  | .update table data => exact prompt (single_update table data).prompt
  | .delete table id => exact prompt (single_delete table id).prompt
  | .relate source verb target data =>
    exact prompt (Query.single_relate _ source verb target data).prompt
  | .query _ | .select _ | .drop _ | .use _ _ | .ping | .close =>
    exact prompt (relays_request _).prompt

namespace Query

theorem refusedLate_insert {σ : Type} (perform : Perform σ) (s : σ) (q : Query) (data : Json) :
    (Plan.run perform (q.insert data) s).RefusedLate ↔
      (Plan.run perform (q.insert data) s).RefusedByWire ∨
        Connection.RefusedList q.table data (Plan.run perform (q.insert data) s).exchanges := by
  unfold insert
  split
  · exact Connection.refusedLate_create perform q.table data s
  · rw [prompt_fail _ σ perform s, or_iff_left]
    rintro ⟨_, -, -, sent⟩
    exact sent rfl

theorem refusedLate_run {σ : Type} (perform : Perform σ) (s : σ) (q : Query) (r : Run) :
    (Plan.run perform (q.run r) s).RefusedLate ↔
      (Plan.run perform (q.run r) s).RefusedByWire ∨
        r.RefusedBetween q (Plan.run perform (q.run r) s).exchanges := by
  by_cases inserts : ∃ data, r = .insert data
  · obtain ⟨data, rfl⟩ := inserts
    have mapped : q.run (.insert data) = Answer.value <$> q.insert data := rfl
    obtain ⟨late, wire⟩ := refusedLate_map perform (q.insert data) Answer.value s
    rw [mapped, late, wire, Plan.run_map]
    exact refusedLate_insert perform s q data
  · have one := single_run q fun data same => inserts ⟨data, same⟩
    rw [one.prompt σ perform s, or_iff_left]
    intro between
    cases r with
    | insert data => exact inserts ⟨data, rfl⟩
    | _ => exact between

end Query

/-- Over any wire, an operation or a run of a query is refused after its first call exactly when
the wire refused the last call, rows of a list were created before one that is refused, or the
columns of an upsert found a record of another table. -/
theorem refusedLate_iff {σ : Type} (perform : Perform σ) (s : σ) :
    (∀ op : Connection.Operation, (run perform op.plan s).RefusedLate ↔
      (run perform op.plan s).RefusedByWire ∨
        op.RefusedBetween (run perform op.plan s).exchanges) ∧
    ∀ (q : Query) (r : Query.Run), (run perform (q.run r) s).RefusedLate ↔
      (run perform (q.run r) s).RefusedByWire ∨
        r.RefusedBetween q (run perform (q.run r) s).exchanges :=
  ⟨Connection.refusedLate_plan perform s, Query.refusedLate_run perform s⟩

def sampleCreate : Connection.Operation :=
  .create "t" (.array [.object [("a", .ofNat 1)], .ofNat 5])

/-- A list is refused for its second row when its first has been created. -/
theorem create_refused_between :
    (run Recorder.perform sampleCreate.plan ⟨[]⟩).result =
        .error (.refusal (.notARecord (.ofNat 5))) ∧
      (run Recorder.perform sampleCreate.plan ⟨[]⟩).exchanges =
        [(.create { table := some "t" } ⟨[("a", .ofNat 1)]⟩, .ok (.array []))] :=
  ⟨rfl, rfl⟩

end RecordClient
