import RecordClient.Connection.Recorder
import RecordClient.Proofs.Connection.Run
import RecordClient.Proofs.Record.Merging
import RecordClient.Proofs.Results
/-!
# Lists of rows

The rows of a list are created in their order, up to the first that is unfit or whose creation
fails: `list_creates_prefix`.
-/
namespace RecordClient

open Plan

/-! ### Unfit rows -/

/-- A token and the id of a body name different tables, or else different ids. -/
def RecordId.Conflict (token : String) (body : Record) (cause : Refusal) : Prop :=
  ∃ text, (body.get? "id").bind Json.idText? = some text ∧
    ((∃ t u, (ofTableToken token).table = some t ∧ (ofIdToken text).table = some u ∧ t ≠ u ∧
        cause = .tableMismatch t u) ∨
      (∀ t u, (ofTableToken token).table = some t → (ofIdToken text).table = some u → t = u) ∧
        ∃ i j, (ofTableToken token).id = some i ∧ (ofIdToken text).id = some j ∧ i ≠ j ∧
          cause = .idMismatch i j)

theorem RecordId.forRecord_eq_error {token : String} {body : Record} {cause : Refusal} :
    forRecord token body = .error cause ↔ Conflict token body cause := by
  unfold forRecord parse Conflict
  cases (body.get? "id").bind Json.idText? with
  | none => simp [merge_empty]
  | some text => simp [merge_eq_error_iff]

namespace Connection

/-- A row is created by this call: its own content, as the record that the table and the content
name. -/
def CreatedAs (table : String) (row : Json) (c : Call) : Prop :=
  ∃ body target, row = body.toJson ∧ RecordId.forRecord table body = .ok target ∧
    target.table.isSome ∧ c = .create target body

/-- Why a row is refused. -/
inductive Unfit (table : String) : Json → Refusal → Prop
  | shapeless {row : Json} (other : ∀ body : Record, row ≠ body.toJson) :
      Unfit table row (.notARecord row)
  | conflicting {body : Record} {cause : Refusal} (clash : RecordId.Conflict table body cause) :
      Unfit table body.toJson cause
  | tableless {body : Record} {target : RecordId}
      (own : RecordId.forRecord table body = .ok target) (missing : target.table = none) :
      Unfit table body.toJson .missingTable

variable {table : String} {row : Json}

theorem createdAs_of_rowTarget {target : RecordId} {body : Record}
    (good : rowTarget table row = .ok (target, body)) :
    CreatedAs table row (.create target body) := by
  obtain ⟨content, required, rest⟩ := bind_eq_ok.mp good
  obtain ⟨named, own, rest⟩ := bind_eq_ok.mp rest
  obtain ⟨t, tabled, same⟩ := bind_eq_ok.mp rest
  cases same
  have given := RecordId.requireTable_eq_ok.mp tabled
  exact ⟨body, target, Record.require_eq_ok.mp required, own, Option.isSome_of_eq_some given, rfl⟩

theorem unfit_of_rowTarget {cause : Refusal} (bad : rowTarget table row = .error cause) :
    Unfit table row cause := by
  rcases bind_eq_error.mp bad with shapeless | ⟨body, required, rest⟩
  · obtain ⟨other, rfl⟩ := Record.require_eq_error.mp shapeless
    exact .shapeless other
  obtain rfl := Record.require_eq_ok.mp required
  rcases bind_eq_error.mp rest with clash | ⟨target, own, rest⟩
  · exact .conflicting (RecordId.forRecord_eq_error.mp clash)
  rcases bind_eq_error.mp rest with refused | ⟨t, -, ⟨⟩⟩
  obtain ⟨missing, rfl⟩ := RecordId.requireTable_eq_error.mp refused
  exact .tableless own missing

/-! ### Runs of rows -/

/-- How the creation of rows ends, behind those that were made: never stopped, at an unfit row, or
at a call that fails. -/
inductive Stops {α : Type} (table : String) (made : List (Call × Reply)) (all : α) :
    List Json → Except Error α → List (Call × Reply) → Prop
  | never : Stops table made all [] (.ok all) made
  | unfit {row : Json} {rest : List Json} {cause : Refusal} (bad : Unfit table row cause) :
      Stops table made all (row :: rest) (.error (.refusal cause)) made
  | failed {row : Json} {rest : List Json} {c : Call} {e : Error} (own : CreatedAs table row c) :
      Stops table made all (row :: rest) (.error e) (made ++ [(c, .error e)])

section
variable {α β : Type} {made exchanges : List (Call × Reply)} {all : α} {after : List Json}
  {result : Except Error α}

theorem Stops.map (h : Stops table made all after result exchanges) (g : α → β) :
    Stops table made (g all) after (result.map g) exchanges := by
  cases h with
  | never => exact .never
  | unfit bad => exact .unfit bad
  | failed own => exact .failed own

theorem Stops.behind (h : Stops table made all after result exchanges) (x : Call × Reply) :
    Stops table (x :: made) all after result (x :: exchanges) := by
  cases h with
  | never => exact .never
  | unfit bad => exact .unfit bad
  | failed own => exact .failed own

theorem Stops.succeeds_iff (h : Stops table made all after result exchanges) :
    (∃ a, result = .ok a) ↔ after = [] := by
  cases h with
  | never => simp
  | unfit | failed => simp

end

/-- The rows split where their creation stops: each row ahead was created by a call of its own and
answered. -/
theorem RowsRun.splits {rows : List Json} {result : Except Error (List Json)}
    {exchanges : List (Call × Reply)} (h : RowsRun table rows result exchanges) :
    ∃ before after calls replies, rows = before ++ after ∧
      List.Forall₂ (CreatedAs table) before calls ∧ replies.length = before.length ∧
      Stops table (calls.zip (replies.map Except.ok)) replies after result exchanges := by
  induction h with
  | done => exact ⟨[], [], [], [], rfl, .nil, rfl, .never⟩
  | @refused row rest cause bad =>
    exact ⟨[], row :: rest, [], [], rfl, .nil, rfl, .unfit (unfit_of_rowTarget bad)⟩
  | @failed row rest target body e good =>
    exact ⟨[], row :: rest, [], [], rfl, .nil, rfl, .failed (createdAs_of_rowTarget good)⟩
  | @created row v rest target body result exchanges good later ih =>
    obtain ⟨before, after, calls, replies, rfl, each, answered, stops⟩ := ih
    refine ⟨row :: before, after, .create target body :: calls, v :: replies, rfl,
      .cons (createdAs_of_rowTarget good) each, congrArg (· + 1) answered, ?_⟩
    exact (stops.map (v :: ·)).behind (.create target body, .ok v)

/-- A list is created in the order of its rows, up to the first that is no object, whose id
disagrees with the table, that has no table, or whose call fails. Each row ahead of it has one call
with its own content, about the record that the table and the content name, and there is no call
behind the one that failed. The result is the list of the replies exactly when no row stopped the
creation, and else the error of the row that did. -/
theorem list_creates_prefix {σ : Type} {perform : Perform σ} {s : σ} {op : Operation}
    {rows : List Json} {o : Outcome σ Json}
    (listed : op = .create table (.array rows) ∨ op = .insert table (.array rows))
    (ran : run perform op.plan s = o) :
    ∃ before after calls replies, rows = before ++ after ∧
      List.Forall₂ (CreatedAs table) before calls ∧ replies.length = before.length ∧
      Stops table (calls.zip (replies.map Except.ok)) (.array replies) after o.result o.exchanges ∧
      ((∃ v, o.result = .ok v) ↔ after = []) := by
  have created : op.plan = Json.array <$> createRows table rows := by
    rcases listed with rfl | rfl <;> rfl
  subst ran
  rw [created, run_map]
  obtain ⟨before, after, calls, replies, same, each, answered, stops⟩ :=
    (rowsRun perform table rows s).splits
  have listed := stops.map Json.array
  exact ⟨before, after, calls, replies, same, each, answered, listed, listed.succeeds_iff⟩

def sampleListing : List Json :=
  [.object [("a", .ofNat 1)], .object [("id", .string "u:1")], .object [("a", .ofNat 2)]]

def sampleListed : Outcome Recorder Json :=
  run Recorder.perform (Operation.insert "t" (.array sampleListing)).plan ⟨[.ok (.bool true)]⟩

/-- The second row is one of another table, so the third is not created either. -/
theorem sampleListed_creates_prefix :
    sampleListed.exchanges =
        [(.create { table := some "t" } ⟨[("a", .ofNat 1)]⟩, .ok (.bool true))] ∧
      sampleListed.result = .error (.refusal (.tableMismatch "t" "u")) ∧
      ∃ before after calls replies, sampleListing = before ++ after ∧
        List.Forall₂ (CreatedAs "t") before calls ∧ replies.length = before.length ∧
        Stops "t" (calls.zip (replies.map Except.ok)) (.array replies) after sampleListed.result
          sampleListed.exchanges ∧
        after ≠ [] := by
  have refused : sampleListed.result = .error (.refusal (.tableMismatch "t" "u")) := by rfl
  obtain ⟨before, after, calls, replies, same, each, answered, stops, whole⟩ :=
    list_creates_prefix (Or.inr rfl) (Eq.refl sampleListed)
  refine ⟨rfl, refused, before, after, calls, replies, same, each, answered, stops, ?_⟩
  intro all
  obtain ⟨v, fine⟩ := whole.mpr all
  cases fine.symm.trans refused

end Connection

end RecordClient
