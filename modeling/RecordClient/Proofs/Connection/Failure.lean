import RecordClient.Connection.Recorder
import RecordClient.Proofs.Connection.Run
import RecordClient.Shell.Session
/-!
# Failures

A call that fails ends what it was made for: it is the last call, and its error is the result.
`failed_call_is_last` shows this of every operation, run of a query and command of the shell.
-/
namespace RecordClient

namespace Plan

variable {α β σ : Type}

/-! ### Outcomes -/

/-- A call that failed is the last one, and its error is the result. -/
def Outcome.EndsAtFailure (o : Outcome σ α) : Prop :=
  ∀ (before after : List (Call × Reply)) (c : Call) (e : Error),
    o.exchanges = before ++ (c, .error e) :: after → after = [] ∧ o.result = .error e

theorem Outcome.endsAtFailure_of_failed (c : Call) (e : Error) (s : σ) :
    (⟨.error e, [(c, .error e)], s⟩ : Outcome σ α).EndsAtFailure := by
  intro before after d f made
  rcases List.append_eq_singleton_iff.mp made.symm with ⟨rfl, single⟩ | ⟨-, nothing⟩
  · cases single
    exact ⟨rfl, rfl⟩
  · cases nothing

theorem Outcome.EndsAtFailure.behind {o : Outcome σ α} (h : o.EndsAtFailure) (c : Call)
    (v : Json) : (o.behind [(c, .ok v)]).EndsAtFailure := by
  intro before after d e made
  have made : (c, .ok v) :: o.exchanges = before ++ (d, .error e) :: after := made
  cases before with
  | nil => cases made
  | cons first before => exact h before after d e (List.cons.inj made).2

/-! ### Plans that end at a failure -/

/-- A plan that goes on after a call only if the call succeeded. -/
inductive Propagates : Plan α → Prop
  | done (result : Except Error α) : Propagates (.done result)
  | call {c : Call} {next : Reply → Plan α} (failed : ∀ e, next (.error e) = .done (.error e))
      (later : ∀ v, Propagates (next (.ok v))) : Propagates (.call c next)

theorem Propagates.endsAtFailure {p : Plan α} (h : Propagates p) (perform : Perform σ) (s : σ) :
    (run perform p s).EndsAtFailure := by
  induction h generalizing s with
  | done result =>
    intro before after c e made
    cases before <;> cases made
  | @call c next failed later ih =>
    rcases reply : perform c s with ⟨e | v, t⟩
    · have ended : run perform (.call c next) s = ⟨.error e, [(c, .error e)], t⟩ := by
        rw [run_call, reply, failed]
        rfl
      rw [ended]
      exact Outcome.endsAtFailure_of_failed c e t
    · rw [run_call, reply]
      exact (ih v t).behind c v

theorem propagates_request (c : Call) : Propagates (request c) :=
  .call (fun _ => rfl) fun v => .done (.ok v)

theorem Propagates.bind {p : Plan α} {f : α → Plan β} (h : Propagates p)
    (later : ∀ a, Propagates (f a)) : Propagates (p >>= f) := by
  induction h with
  | done result =>
    cases result with
    | ok a => exact later a
    | error e => exact .done (.error e)
  | @call c next failed _ ih =>
    have ended : ∀ e, (next (.error e)).bind f = .done (.error e) := by
      intro e
      rw [failed]
      rfl
    exact .call ended ih

theorem Propagates.map {p : Plan α} (h : Propagates p) (g : α → β) : Propagates (g <$> p) :=
  h.bind fun a => .done (.ok (g a))

theorem Single.propagates {p : Plan α} (h : Single p) : Propagates p := by
  cases h with
  | done result => exact .done result
  | call c f => exact (propagates_request c).map f

end Plan

open Plan

/-! ### Operations of several calls -/

namespace Connection

theorem propagates_createRows (table : String) (rows : List Json) :
    Propagates (createRows table rows) := by
  induction rows with
  | nil => exact .done _
  | cons row rest ih =>
    exact (single_createRow table row).propagates.bind fun v => ih.map (v :: ·)

theorem propagates_create (table : String) (data : Json) : Propagates (create table data) := by
  match data with
  | .array rows => exact (propagates_createRows table rows).map Json.array
  | .null | .bool _ | .number _ | .string _ | .object _ =>
    exact (single_createRow table _).propagates

theorem propagates_upsert (target : String) (data : Json) (keys : List String) :
    Propagates (upsert target data keys) := by
  rcases upsert_cases target data keys with
    ⟨e, same⟩ | ⟨body, named, table, -, same⟩ | ⟨body, named, table, filters, -, same⟩
  · rw [same]
    exact .done _
  · rw [same]
    exact (propagates_request _).bind fun v => propagates_request _
  · rw [same]
    refine (propagates_request _).bind fun v => ?_
    rcases settle_cases named table body v with ⟨_, _, -, -, settled⟩ | ⟨c, settled, -⟩
    · rw [settled]
      exact .done _
    · rw [settled]
      exact propagates_request c

theorem propagates_plan (op : Operation) : Propagates op.plan := by
  match op with
  | .get table id => exact (single_get table id).propagates
  | .create table data | .insert table data => exact propagates_create table data
  | .update table data => exact (single_update table data).propagates
  | .upsert target data keys => exact propagates_upsert target data keys
  | .delete table id => exact (single_delete table id).propagates
  | .relate source verb target data =>
    exact (Query.single_relate _ source verb target data).propagates
  | .query _ | .select _ | .drop _ | .use _ _ | .ping | .close => exact propagates_request _

end Connection

theorem Query.propagates_run (q : Query) (r : Run) : Propagates (q.run r) := by
  by_cases inserts : ∃ data, r = .insert data
  · obtain ⟨data, rfl⟩ := inserts
    have inserted : Propagates (q.insert data) := by
      unfold insert
      split
      · exact Connection.propagates_create q.table data
      · exact .done _
    exact inserted.map Answer.value
  · exact (single_run q fun data same => inserts ⟨data, same⟩).propagates

theorem Shell.propagates_plan (c : Command) : Propagates c.plan := by
  match c with
  | .exit | .ping | .use _ _ => exact (propagates_request _).map fun _ => none
  | .get target => exact (Connection.single_get target none).propagates.map some
  | .delete target => exact (Connection.single_delete target none).propagates.map some
  | .drop _ | .query _ => exact (propagates_request _).map some

/-- Over any wire, if one of the calls of an operation, of a run of a query or of a command of the
shell fails, then no call is made after it, and its error is the result. -/
theorem failed_call_is_last {σ : Type} (perform : Perform σ) (s : σ)
    {before after : List (Call × Reply)} {c : Call} {e : Error} :
    (∀ op : Connection.Operation,
      (run perform op.plan s).exchanges = before ++ (c, .error e) :: after →
        after = [] ∧ (run perform op.plan s).result = .error e) ∧
    (∀ (q : Query) (r : Query.Run),
      (run perform (q.run r) s).exchanges = before ++ (c, .error e) :: after →
        after = [] ∧ (run perform (q.run r) s).result = .error e) ∧
    ∀ command : Shell.Command,
      (run perform command.plan s).exchanges = before ++ (c, .error e) :: after →
        after = [] ∧ (run perform command.plan s).result = .error e := by
  refine ⟨fun op => ?_, fun q r => ?_, fun command => ?_⟩
  · exact (Connection.propagates_plan op).endsAtFailure perform s before after c e
  · exact (Query.propagates_run q r).endsAtFailure perform s before after c e
  · exact (Shell.propagates_plan command).endsAtFailure perform s before after c e

def sampleRows : Connection.Operation :=
  .create "t" (.array [.object [("a", .ofNat 1)], .object [("a", .ofNat 2)], .object []])

def sampleFailure : Reply := .error (.wire .timeout)

/-- A list is given up at the second of its three rows, a count has no default when its query
fails, and a command of the shell reports the failure. -/
theorem failed_samples_end :
    (run Recorder.perform sampleRows.plan ⟨[.ok .null, sampleFailure]⟩).exchanges =
        [(.create { table := some "t" } ⟨[("a", .ofNat 1)]⟩, .ok .null),
          (.create { table := some "t" } ⟨[("a", .ofNat 2)]⟩, sampleFailure)] ∧
      (run Recorder.perform sampleRows.plan ⟨[.ok .null, sampleFailure]⟩).result =
        .error (.wire .timeout) ∧
      (run Recorder.perform ((Query.ofConnection "t").run .count) ⟨[sampleFailure]⟩).result =
        .error (.wire .timeout) ∧
      (run Recorder.perform (Shell.Command.get "t:1").plan ⟨[sampleFailure]⟩).result =
        .error (.wire .timeout) := by
  have listed : (run Recorder.perform sampleRows.plan ⟨[.ok .null, sampleFailure]⟩).exchanges =
      [(.create { table := some "t" } ⟨[("a", .ofNat 1)]⟩, .ok .null)] ++
        (.create { table := some "t" } ⟨[("a", .ofNat 2)]⟩, .error (.wire .timeout)) :: [] := rfl
  have counted :
      (run Recorder.perform ((Query.ofConnection "t").run .count) ⟨[sampleFailure]⟩).exchanges =
        [] ++ (.query "SELECT count() FROM t GROUP ALL", .error (.wire .timeout)) :: [] := by
    rfl
  have read : (run Recorder.perform (Shell.Command.get "t:1").plan ⟨[sampleFailure]⟩).exchanges =
      [] ++ (.select ⟨some "t", some "1"⟩, .error (.wire .timeout)) :: [] := by
    rfl
  exact ⟨listed, ((failed_call_is_last _ _).1 _ listed).2,
    ((failed_call_is_last _ _).2.1 _ _ counted).2, ((failed_call_is_last _ _).2.2 _ read).2⟩

end RecordClient
