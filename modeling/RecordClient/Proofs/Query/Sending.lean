import Mathlib.Logic.Function.Basic
import RecordClient.Connection.Recorder
import RecordClient.Proofs.Connection.Run
import RecordClient.Proofs.Query.Steps
import RecordClient.Proofs.Record.Merging
/-!
# What the run of a query sends

The text of a query is made of one clause for each of its parts. A run that looks for rows changes
one or two of these clauses and keeps the others, and a run that changes rows keeps the condition.
`run_sends_own_text` is the main statement.
-/
namespace RecordClient.Query

open Plan

/-! ### Clauses -/

/-- What the text of a query says about a part. -/
def clause (q : Query) : Part → Option String
  | .columns => some ("SELECT " ++ q.columnsText)
  | .filters =>
    if Filter.compile q.filters = "" then none else some ("WHERE " ++ Filter.compile q.filters)
  | .grouping => q.grouping.map groupClause
  | .ordering => q.ordering.map orderClause
  | .limit => q.limit.map fun count => "LIMIT " ++ count.repr
  | .start => q.start.map fun count => "START " ++ count.repr
  | .expansion =>
    if q.expanded = [] then none else some ("FETCH " ++ ", ".intercalate q.expanded)

/-- The parts that a text comes to behind the name of its table. -/
def laterParts : List Part := [.filters, .grouping, .ordering, .limit, .start, .expansion]

/-- The text about a table that has these clauses. -/
def sentence (table : String) (clause : Part → Option String) : String :=
  " ".intercalate ((clause .columns).toList ++ ("FROM " ++ table) :: laterParts.filterMap clause)

theorem selectText_eq_sentence (q : Query) : q.selectText = sentence q.table q.clause := by
  have later : laterParts.filterMap q.clause = (laterParts.map q.clause).filterMap id := by
    rw [List.filterMap_map]
    rfl
  rw [selectText_eq_clauses, sentence, later]
  rfl

theorem whereText_eq_clause (q : Query) : q.whereText = spaced (q.clause .filters) := by
  unfold whereText clause
  dsimp only
  split
  · rfl
  · rw [spaced, Option.elim_some, ← String.append_assoc]
    rfl

theorem clause_limit (q : Query) (count : Nat) :
    clause { q with limit := some count } =
      Function.update q.clause .limit (some ("LIMIT " ++ count.repr)) := by
  funext p
  by_cases own : p = .limit
  · subst own
    rw [Function.update_self]
    rfl
  · rw [Function.update_of_ne own]
    cases p with
    | limit => exact absurd rfl own
    | _ => rfl

/-- The clauses of a query for an aggregate, grouped as they were or else as one group. -/
def aggregateClause (q : Query) (a : Aggregate) : Part → Option String :=
  Function.update (Function.update q.clause .columns (some ("SELECT " ++ a.expression))) .grouping
    ((q.clause .grouping).or (some "GROUP ALL"))

theorem clause_projecting (q : Query) (a : Aggregate) :
    (q.projecting a).clause = q.aggregateClause a := by
  funext p
  unfold aggregateClause
  by_cases grouped : p = .grouping
  · subst grouped
    rw [Function.update_self]
    rcases q with ⟨_, _, _, _, _ | g, _, _, _, _⟩ <;> rfl
  by_cases projected : p = .columns
  · subst projected
    rw [Function.update_of_ne grouped, Function.update_self]
    simp [clause, projecting, columnsText]
  · rw [Function.update_of_ne grouped, Function.update_of_ne projected]
    cases p with
    | columns => exact absurd rfl projected
    | grouping => exact absurd rfl grouped
    | _ => rfl

/-! ### Answers -/

def functionName (expression : String) : String :=
  String.ofList (expression.toList.takeWhile (· ≠ '('))

theorem functionName_expression (a : Aggregate) : functionName a.expression = a.field := by
  have plain : '(' ∉ a.field.toList := by
    cases a <;> simp only [Aggregate.field] <;> decide
  have kept : ∀ c ∈ a.field.toList, decide (c ≠ '(') = true := by
    intro c member
    exact decide_eq_true (ne_of_mem_of_not_mem member plain)
  have chars : a.expression.toList = a.field.toList ++ '(' :: (a.argument ++ ")").toList := by
    simp [Aggregate.expression]
  rw [functionName, chars, List.takeWhile_append_of_pos kept]
  simp

/-- The value in the first row that goes by the name of the function. -/
def firstValue? (expression : String) (v : Json) : Option Json :=
  (rows v).head?.bind (Json.field? (functionName expression))

theorem rows_eq_iff {v : Json} {items : List Json} :
    rows v = items ↔ v = .array items ∨ (v = .null ∧ items = []) ∨
      (v ≠ .null ∧ (∀ list, v ≠ .array list) ∧ items = [v]) := by
  cases v <;> simp [rows, eq_comm]

/-- The answer that a run reads off a reply. -/
inductive Reads : Run → Json → Answer → Prop
  | get (v : Json) : Reads .get v (.rows (rows v))
  | first (v : Json) : Reads .first v (.row (rows v).head?)
  | exists (v : Json) : Reads .exists v (.truth (decide (rows v ≠ [])))
  | count {v : Json} {n : Nat} (whole : n < Nat.pow 2 64)
      (given : firstValue? "count()" v = some (.ofNat n)) : Reads .count v (.number n)
  | uncounted {v : Json} (other : ∀ n < Nat.pow 2 64, firstValue? "count()" v ≠ some (.ofNat n)) :
      Reads .count v (.number 0)
  | aggregate (a : Aggregate) (v : Json) :
      Reads (.aggregate a) v (.value ((firstValue? a.expression v).getD .null))
  | update (data v : Json) : Reads (.update data) v (.value v)
  | delete (v : Json) : Reads .delete v (.value v)
  | relate (source verb target : String) (data : Option Json) (v : Json) :
      Reads (.relate source verb target data) v (.value v)

theorem natural?_eq_some {v : Json} {n : Nat} :
    v.natural? = some n ↔ n < Nat.pow 2 64 ∧ v = .ofNat n := by
  constructor
  · intro h
    unfold Json.natural? at h
    split at h
    · next m =>
      split at h
      · next whole =>
        cases h
        exact ⟨whole, rfl⟩
      · cases h
    · cases h
  · rintro ⟨whole, rfl⟩
    exact if_pos whole

theorem reads_count (v : Json) :
    Reads .count v (.number (((firstValue? "count()" v).getD .null).natural?.getD 0)) := by
  cases counted : ((firstValue? "count()" v).getD .null).natural? with
  | some n =>
    obtain ⟨whole, same⟩ := natural?_eq_some.mp counted
    refine .count whole ?_
    cases given : firstValue? "count()" v with
    | none =>
      rw [given] at same
      cases same
    | some w =>
      rw [given] at same
      exact congrArg some same
  | none =>
    refine .uncounted ?_
    intro n whole given
    rw [given] at counted
    rw [Option.getD_some, natural?_eq_some.mpr ⟨whole, rfl⟩] at counted
    cases counted

/-! ### Texts -/

theorem setText_eq_nil_iff {data : Record} : setText data = "" ↔ data.fields = [] := by
  unfold setText
  split
  · next none => simp [none]
  · next some_field => simp [some_field]

theorem setText_of_fields {data : Record} (some_field : data.fields ≠ []) :
    setText data = " SET " ++ ", ".intercalate
      (data.fields.map fun field => field.1 ++ " = " ++ Literal.ofJson field.2) :=
  if_neg some_field

/-- The text that a run sends. -/
inductive Sends (q : Query) : Run → String → Prop
  | get : Sends q .get q.selectText
  | first : Sends q .first (sentence q.table (Function.update q.clause .limit (some "LIMIT 1")))
  | exists : Sends q .exists (sentence q.table (Function.update q.clause .limit (some "LIMIT 1")))
  | count : Sends q .count (sentence q.table (q.aggregateClause .count))
  | aggregate (a : Aggregate) : Sends q (.aggregate a) (sentence q.table (q.aggregateClause a))
  | update (body : Record) :
      Sends q (.update body.toJson)
        ("UPDATE " ++ q.table ++ setText body ++ spaced (q.clause .filters))
  | delete : Sends q .delete ("DELETE " ++ q.table ++ spaced (q.clause .filters))
  | relate {source target : String} {a b : RecordId} (verb : String) (data : Option Record)
      (named : RecordId.parse (some source) none = .ok a)
      (other : RecordId.parse (some target) none = .ok b) :
      Sends q (.relate source verb target (data.map Record.toJson))
        ("RELATE " ++ a.rendered ++ "->" ++ verb ++ "->" ++ b.rendered ++
          (data.map setText).getD "")

theorem get_of_bound {q : Query} (bound : q.bound = true) :
    q.get = rows <$> request (.query q.selectText) :=
  congrArg (rows <$> ·) (send_of_bound bound _)

theorem first_of_bound {q : Query} (bound : q.bound = true) :
    q.first = (fun v => (rows v).head?) <$> request
      (.query (sentence q.table (Function.update q.clause .limit (some "LIMIT 1")))) := by
  have limited := get_of_bound (q := { q with limit := some 1 }) bound
  rw [selectText_eq_sentence, clause_limit] at limited
  have taken : q.first = List.head? <$> { q with limit := some 1 }.get := rfl
  rw [taken, limited, ← comp_map]
  rfl

theorem aggregate_of_bound {q : Query} (bound : q.bound = true) (a : Aggregate) :
    q.aggregate a = (fun v => (firstValue? a.expression v).getD .null) <$> request
      (.query (sentence q.table (q.aggregateClause a))) := by
  have projected := get_of_bound (q := q.projecting a) bound
  rw [selectText_eq_sentence, clause_projecting] at projected
  have taken : q.aggregate a =
      (fun rows => (rows.head?.bind (Json.field? a.field)).getD .null) <$> (q.projecting a).get :=
    rfl
  rw [taken, projected, ← comp_map]
  unfold firstValue?
  rw [functionName_expression]
  rfl

theorem update_of_bound {q : Query} (bound : q.bound = true) (body : Record) :
    q.update body.toJson = request
      (.query ("UPDATE " ++ q.table ++ setText body ++ spaced (q.clause .filters))) := by
  rw [← whereText_eq_clause]
  exact send_of_bound bound (q.updateText body)

theorem delete_of_bound {q : Query} (bound : q.bound = true) :
    q.delete = request (.query ("DELETE " ++ q.table ++ spaced (q.clause .filters))) := by
  rw [← whereText_eq_clause]
  exact send_of_bound bound q.deleteText

theorem relate_of_bound {q : Query} (bound : q.bound = true) {source target : String}
    {a b : RecordId} (named : RecordId.parse (some source) none = .ok a)
    (other : RecordId.parse (some target) none = .ok b) (verb : String) (data : Option Record) :
    q.relate source verb target (data.map Record.toJson) = request
      (.query ("RELATE " ++ a.rendered ++ "->" ++ verb ++ "->" ++ b.rendered ++
        (data.map setText).getD "")) := by
  have set : setText (data.getD ⟨[]⟩) = (data.map setText).getD "" := by
    cases data <;> rfl
  rw [relate_of_parse named other, send_of_bound bound, Link.text, set]

/-! ### Runs -/

def Run.data? : Run → Option Json
  | .update data => some data
  | .relate _ _ _ data => data
  | _ => none

def Run.Malformed (r : Run) (v : Json) : Prop :=
  r.data? = some v ∧ ∀ body : Record, v ≠ body.toJson

/-- A bound run is its query text, with the answer read off the reply, unless its data are
malformed. -/
theorem run_of_bound {q : Query} (bound : q.bound = true) {r : Run}
    (inserts : ∀ data, r ≠ .insert data) (finds : ∀ id, r ≠ .find id) :
    (∃ v, r.Malformed v ∧ q.run r = fail (.refusal (.notARecord v))) ∨
      ∃ text read, Sends q r text ∧ (∀ v, Reads r v (read v)) ∧
        q.run r = read <$> request (.query text) := by
  cases r with
  | get =>
    refine Or.inr ⟨_, _, .get, .get, ?_⟩
    exact (congrArg (Answer.rows <$> ·) (get_of_bound bound)).trans (comp_map _ _ _).symm
  | first =>
    refine Or.inr ⟨_, _, .first, .first, ?_⟩
    exact (congrArg (Answer.row <$> ·) (first_of_bound bound)).trans (comp_map _ _ _).symm
  | «exists» =>
    have some_row (v : Json) : (rows v).head?.isSome = decide (rows v ≠ []) := by
      cases rows v <;> rfl
    refine Or.inr ⟨_, fun v => .truth (rows v).head?.isSome, .exists, fun v => ?_, ?_⟩
    · show Reads .exists v (.truth (rows v).head?.isSome)
      rw [some_row]
      exact .exists v
    · have taken : q.run .exists = (fun row => Answer.truth row.isSome) <$> q.first := by
        have same : q.exists? = Option.isSome <$> q.first := rfl
        rw [run, same, ← comp_map]
        rfl
      rw [taken, first_of_bound bound, ← comp_map]
      rfl
  | find id => exact absurd rfl (finds id)
  | insert data => exact absurd rfl (inserts data)
  | update data =>
    cases required : Record.require data with
    | error e =>
      obtain ⟨shapeless, rfl⟩ := Record.require_eq_error.mp required
      refine Or.inl ⟨data, ⟨rfl, shapeless⟩, ?_⟩
      rw [run, update, required]
      rfl
    | ok body =>
      obtain rfl := Record.require_eq_ok.mp required
      refine Or.inr ⟨_, _, .update body, .update _, ?_⟩
      rw [run, update_of_bound bound]
  | delete =>
    refine Or.inr ⟨_, _, .delete, .delete, ?_⟩
    rw [run, delete_of_bound bound]
  | relate source verb target data =>
    -- A token alone is never refused, so the data are all that can be.
    have shaped (body : Option Record) (same : data = body.map Record.toJson) :
        ∃ text read, Sends q (.relate source verb target data) text ∧
          (∀ v, Reads (.relate source verb target data) v (read v)) ∧
          q.run (.relate source verb target data) = read <$> request (.query text) := by
      subst same
      have named := RecordId.parse_alone source
      have other := RecordId.parse_alone target
      refine ⟨_, _, .relate verb body named other, .relate _ _ _ _, ?_⟩
      rw [run, relate_of_bound bound named other]
    cases data with
    | none => exact Or.inr (shaped none rfl)
    | some v =>
      cases required : Record.require v with
      | error e =>
        obtain ⟨shapeless, rfl⟩ := Record.require_eq_error.mp required
        refine Or.inl ⟨v, ⟨rfl, shapeless⟩, ?_⟩
        rw [run, relate, required]
        rfl
      | ok body =>
        obtain rfl := Record.require_eq_ok.mp required
        exact Or.inr (shaped (some body) rfl)
  | count =>
    refine Or.inr ⟨_, _, .count, reads_count, ?_⟩
    have taken : q.run .count =
        (fun v => Answer.number (v.natural?.getD 0)) <$> q.aggregate .count := by
      have same : q.count = (fun v => v.natural?.getD 0) <$> q.aggregate .count := rfl
      rw [run, same, ← comp_map]
      rfl
    rw [taken, aggregate_of_bound bound, ← comp_map]
    rfl
  | aggregate a =>
    refine Or.inr ⟨_, _, .aggregate a, .aggregate a, ?_⟩
    exact (congrArg (Answer.value <$> ·) (aggregate_of_bound bound a)).trans (comp_map _ _ _).symm

/-! ### Detached queries -/

def Refused {α : Type} (p : Plan α) : Prop := ∃ cause, p = fail (.refusal cause)

section
variable {α β : Type} {p : Plan α}

theorem Refused.map (h : Refused p) (g : α → β) : Refused (g <$> p) := by
  obtain ⟨cause, rfl⟩ := h
  exact ⟨cause, rfl⟩

theorem refused_check_bind (r : Except Refusal α) {f : α → Plan β} (h : ∀ a, Refused (f a)) :
    Refused (check r >>= f) := by
  cases r with
  | error cause => exact ⟨cause, rfl⟩
  | ok a => exact h a

end

section
variable {q : Query} (detached : q.bound = false)
include detached

theorem refused_send (text : String) : Refused (q.send text) := by
  refine ⟨.detached, ?_⟩
  rw [send, detached]
  rfl

theorem refused_get : Refused q.get := (refused_send detached _).map rows

theorem refused_first : Refused q.first := by
  have limited : Refused (get { q with limit := some 1 }) := refused_get detached
  exact limited.map List.head?

theorem refused_aggregate (a : Aggregate) : Refused (q.aggregate a) := by
  have projected : Refused (get (q.projecting a)) := refused_get detached
  exact projected.map fun rows => (rows.head?.bind (Json.field? a.field)).getD .null

theorem refused_find (id : String) : Refused (q.find id) := by
  refine refused_check_bind _ fun target => refused_check_bind _ fun _ => ⟨.detached, ?_⟩
  rw [detached]
  rfl

theorem refused_relate (source verb target : String) (data : Option Json) :
    Refused (q.relate source verb target data) := by
  have rest (body : Record) : Refused (do
      let source ← check (RecordId.parse (some source) none)
      let target ← check (RecordId.parse (some target) none)
      q.send (Link.text { source, verb, target, data := body })) :=
    refused_check_bind _ fun _ => refused_check_bind _ fun _ => refused_send detached _
  cases data with
  | none => exact rest ⟨[]⟩
  | some v => exact refused_check_bind _ rest

theorem refused_run (r : Run) : Refused (q.run r) := by
  cases r with
  | get => exact (refused_get detached).map _
  | first => exact (refused_first detached).map _
  | «exists» => exact ((refused_first detached).map Option.isSome).map _
  | find id => exact (refused_find detached id).map _
  | insert data =>
    have refused : Refused (q.insert data) := by
      refine ⟨.detached, ?_⟩
      rw [insert, detached]
      rfl
    exact refused.map _
  | update data =>
    have refused : Refused (q.update data) :=
      refused_check_bind _ fun _ => refused_send detached _
    exact refused.map _
  | delete => exact (refused_send detached _).map _
  | relate source verb target data => exact (refused_relate detached source verb target data).map _
  | count => exact ((refused_aggregate detached .count).map fun v => v.natural?.getD 0).map _
  | aggregate a => exact (refused_aggregate detached a).map _

end

/-- The text of a query is made of its clauses. A run of a bound query that neither inserts nor
finds by an id is refused for its malformed data, with no call made, or sends one query text: its
own, its own with another limit, its own for one aggregate and grouped at least as a whole, a
change of the rows that its condition selects, or a link. The answer is read off the reply alone.
Every run of a query that is not bound is refused, with no call made. -/
theorem run_sends_own_text {σ : Type} {perform : Perform σ} {s : σ} {q : Query} {r : Run}
    {o : Outcome σ Answer} (ran : Plan.run perform (q.run r) s = o) :
    q.selectText = sentence q.table q.clause ∧
    (q.bound = true → (∀ data, r ≠ .insert data) → (∀ id, r ≠ .find id) →
      (∃ v, r.Malformed v ∧ o.exchanges = [] ∧ o.result = .error (.refusal (.notARecord v))) ∨
      ∃ text, Sends q r text ∧
        ((∃ e, o.exchanges = [(.query text, .error e)] ∧ o.result = .error e) ∨
          ∃ v answer, o.exchanges = [(.query text, .ok v)] ∧ o.result = .ok answer ∧
            Reads r v answer)) ∧
    (q.bound = false → o.exchanges = [] ∧ ∃ cause, o.result = .error (.refusal cause)) := by
  subst ran
  refine ⟨selectText_eq_sentence q, fun bound inserts finds => ?_, fun detached => ?_⟩
  · rcases run_of_bound bound inserts finds with ⟨v, bad, same⟩ | ⟨text, read, sends, reads, same⟩
    · rw [same]
      exact Or.inl ⟨v, bad, rfl, rfl⟩
    · refine Or.inr ⟨text, sends, ?_⟩
      rw [same, run_map_request]
      cases (perform (.query text) s).1 with
      | error e => exact Or.inl ⟨e, rfl, rfl⟩
      | ok v => exact Or.inr ⟨v, read v, rfl, rfl, reads v⟩
  · obtain ⟨cause, same⟩ := refused_run detached r
    rw [same]
    exact ⟨rfl, cause, rfl⟩

def sampleBound : Query :=
  (ofConnection "t").applyAll
    [.select ["name"], .andWhere (Filter.equal "a" (Json.ofNat 1)), .fetch "b", .limit 5]

def sampleCount (q : Query) : Outcome Recorder Answer :=
  Plan.run Recorder.perform (q.run .count) ⟨[.ok (.object [("count", .ofNat 3)])]⟩

/-- The columns give way to the aggregate, and the other clauses stay. -/
theorem sampleCount_sends_own_text :
    (sampleCount sampleBound).exchanges =
        [(.query "SELECT count() FROM t WHERE a = 1 GROUP ALL ORDER BY id ASC LIMIT 5 FETCH b",
          .ok (.object [("count", .ofNat 3)]))] ∧
      (sampleCount sampleBound).result = .ok (.number 3) ∧
      (∃ text, Sends sampleBound .count text ∧
        ∃ v answer, (sampleCount sampleBound).exchanges = [(.query text, .ok v)] ∧
          (sampleCount sampleBound).result = .ok answer ∧ Reads .count v answer) ∧
      (sampleCount { sampleBound with bound := false }).exchanges = [] := by
  have called : (sampleCount sampleBound).exchanges =
      [(.query "SELECT count() FROM t WHERE a = 1 GROUP ALL ORDER BY id ASC LIMIT 5 FETCH b",
        .ok (.object [("count", .ofNat 3)]))] := by
    decide
  obtain ⟨-, runs, -⟩ := run_sends_own_text (Eq.refl (sampleCount sampleBound))
  obtain ⟨-, -, detached⟩ :=
    run_sends_own_text (Eq.refl (sampleCount { sampleBound with bound := false }))
  refine ⟨called, by decide, ?_, (detached rfl).1⟩
  rcases runs rfl nofun nofun with ⟨v, bad, -⟩ | ⟨text, sends, ⟨e, failed, -⟩ | answered⟩
  · cases bad.1
  · cases called.symm.trans failed
  · exact ⟨text, sends, answered⟩

end RecordClient.Query
