import RecordClient.Connection.Operation
/-!
# How operations run

What the runs of plans are made of, which calls a plan may make (`Makes`), and the shape of the
operations that make several calls. Rows are created in turn as `RowsRun` says, and an upsert has
one of the three forms of `upsert_cases`.
-/
namespace RecordClient

namespace Plan

variable {α β σ : Type}

/-! ### Runs of bound plans -/

theorem run_bind (perform : Perform σ) (p : Plan α) (f : α → Plan β) (s : σ) :
    (∃ a, (run perform p s).result = .ok a ∧
      run perform (p >>= f) s =
        (run perform (f a) (run perform p s).state).behind (run perform p s).exchanges) ∨
    ∃ e, (run perform p s).result = .error e ∧
      run perform (p >>= f) s =
        ⟨.error e, (run perform p s).exchanges, (run perform p s).state⟩ := by
  rcases h : run perform p s with ⟨result, exchanges, state⟩
  cases result with
  | ok a => exact Or.inl ⟨a, rfl, run_bind_ok h f⟩
  | error e => exact Or.inr ⟨e, rfl, run_bind_error h f⟩

theorem run_request_bind_ok {perform : Perform σ} {c : Call} {s t : σ} {v : Json}
    (reply : perform c s = (.ok v, t)) (f : Json → Plan α) :
    run perform (request c >>= f) s = (run perform (f v) t).behind [(c, .ok v)] :=
  run_bind_ok (by rw [request, run_call, reply]; rfl) f

theorem run_request_bind_error {perform : Perform σ} {c : Call} {s t : σ} {e : Error}
    (reply : perform c s = (.error e, t)) (f : Json → Plan α) :
    run perform (request c >>= f) s = ⟨.error e, [(c, .error e)], t⟩ :=
  run_bind_error (by rw [request, run_call, reply]; rfl) f

theorem run_map (perform : Perform σ) (p : Plan α) (g : α → β) (s : σ) :
    run perform (g <$> p) s =
      ⟨(run perform p s).result.map g, (run perform p s).exchanges, (run perform p s).state⟩ := by
  have mapped : g <$> p = p >>= fun a => .done (.ok (g a)) := rfl
  rw [mapped]
  rcases run_bind perform p (fun a => .done (.ok (g a))) s with
    ⟨a, fine, split⟩ | ⟨e, failed, split⟩
  · rw [split, fine, run, Outcome.behind, List.append_nil]
    rfl
  · rw [split, failed]
    rfl

theorem run_map_request (perform : Perform σ) (c : Call) (g : Json → α) (s : σ) :
    run perform (g <$> request c) s =
      ⟨(perform c s).1.map g, [(c, (perform c s).1)], (perform c s).2⟩ := by
  rw [run_map]
  rfl

/-! ### Checks -/

theorem check_ok_bind (a : α) (f : α → Plan β) : check (.ok a) >>= f = f a := rfl

theorem check_bind (r : Except Refusal α) (f : α → Except Refusal β) :
    check (r >>= f) = check r >>= fun a => check (f a) := by
  cases r <;> rfl

/-! ### Calls that a plan may make -/

/-- Whatever the replies are, each call of a plan meets a condition. -/
inductive Makes (P : Call → Prop) : Plan α → Prop
  | done (result : Except Error α) : Makes P (.done result)
  | call {c : Call} {next : Reply → Plan α} (own : P c) (later : ∀ reply, Makes P (next reply)) :
      Makes P (.call c next)

variable {P : Call → Prop}

theorem Makes.of_mem {p : Plan α} (h : Makes P p) {perform : Perform σ} {s : σ} {c : Call}
    {reply : Reply} (made : (c, reply) ∈ (run perform p s).exchanges) : P c := by
  induction h generalizing s with
  | done result => cases made
  | call own _ ih =>
    rcases List.mem_cons.mp made with here | later
    · cases here
      exact own
    · exact ih _ later

theorem makes_request {c : Call} (own : P c) : Makes P (request c) :=
  .call own fun reply => .done reply

theorem Makes.bind {p : Plan α} {f : α → Plan β} (h : Makes P p) (later : ∀ a, Makes P (f a)) :
    Makes P (p >>= f) := by
  induction h with
  | done result =>
    cases result with
    | ok a => exact later a
    | error e => exact .done (.error e)
  | call own _ ih => exact .call own ih

theorem Makes.map {p : Plan α} (h : Makes P p) (g : α → β) : Makes P (g <$> p) :=
  h.bind fun a => .done (.ok (g a))

theorem makes_check_bind {r : Except Refusal α} {f : α → Plan β}
    (later : ∀ a, r = .ok a → Makes P (f a)) : Makes P (check r >>= f) := by
  cases r with
  | error e => exact .done (.error (.refusal e))
  | ok a => exact later a rfl

/-! ### Plans of one call -/

/-- A plan that makes no call, or only reads its result off the reply to one. -/
inductive Single : Plan α → Prop
  | done (result : Except Error α) : Single (.done result)
  | call (c : Call) (f : Json → α) : Single (f <$> request c)

theorem single_request (c : Call) : Single (request c) := by
  have same : id <$> request c = request c := id_map _
  rw [← same]
  exact .call c id

theorem single_check_bind (r : Except Refusal α) {f : α → Plan β} (h : ∀ a, Single (f a)) :
    Single (check r >>= f) := by
  cases r with
  | error e => exact .done (.error (.refusal e))
  | ok a => exact h a

theorem Single.map {p : Plan α} (h : Single p) (g : α → β) : Single (g <$> p) := by
  cases h with
  | done result =>
    have ended : g <$> Plan.done result = .done (result.map g) := by cases result <;> rfl
    rw [ended]
    exact .done _
  | call c f =>
    rw [← comp_map]
    exact .call c (g ∘ f)

end Plan

open Plan

/-! ### Bodies -/

theorem Record.require_eq_ok {v : Json} {body : Record} :
    Record.require v = .ok body ↔ v = body.toJson := by
  constructor
  · intro h
    unfold Record.require at h
    split at h
    · next shaped =>
      cases h
      exact (Record.toJson_of_ofJson? shaped).symm
    · cases h
  · rintro rfl
    rfl

theorem Record.require_eq_error {v : Json} {e : Refusal} :
    Record.require v = .error e ↔ (∀ body : Record, v ≠ body.toJson) ∧ e = .notARecord v := by
  unfold Record.require
  split
  · next body shaped =>
    obtain rfl := Record.toJson_of_ofJson? shaped
    refine iff_of_false (by simp) ?_
    rintro ⟨shapeless, -⟩
    exact shapeless body rfl
  · next shapeless =>
    have other : ∀ body : Record, v ≠ body.toJson := by
      rintro body rfl
      cases shapeless
    simp [other, eq_comm]

/-! ### Operations of one call -/

namespace Connection

theorem single_get (table : String) (id : Option String) : Single (get table id) :=
  single_check_bind _ fun _ => single_check_bind _ fun _ => single_request _

theorem single_update (table : String) (data : Json) : Single (update table data) :=
  single_check_bind _ fun _ => single_check_bind _ fun _ => single_check_bind _ fun _ =>
    single_check_bind _ fun _ => single_request _

theorem single_delete (table : String) (id : Option String) : Single (delete table id) :=
  single_check_bind _ fun _ => single_check_bind _ fun _ => single_check_bind _ fun _ =>
    single_request _

end Connection

namespace Query

theorem send_of_bound {q : Query} (bound : q.bound = true) (text : String) :
    q.send text = request (.query text) := if_pos bound

theorem relate_of_parse {q : Query} {source target : String} {a b : RecordId}
    (named : RecordId.parse (some source) none = .ok a)
    (other : RecordId.parse (some target) none = .ok b) (verb : String) (data : Option Record) :
    q.relate source verb target (data.map Record.toJson) =
      q.send (Link.text ⟨a, verb, b, data.getD ⟨[]⟩⟩) := by
  unfold relate
  rw [named, other]
  cases data <;> rfl

theorem single_send (q : Query) (text : String) : Single (q.send text) := by
  unfold send
  split
  · exact single_request _
  · exact .done _

theorem single_get (q : Query) : Single q.get := (single_send q _).map rows

theorem single_first (q : Query) : Single q.first := (single_get _).map List.head?

theorem single_find (q : Query) (id : String) : Single (q.find id) := by
  refine single_check_bind _ fun target => single_check_bind _ fun _ => ?_
  split
  · exact (Connection.single_get _ _).map fun v => (rows v).head?
  · exact .done _

theorem single_update (q : Query) (data : Json) : Single (q.update data) :=
  single_check_bind _ fun _ => single_send q _

theorem single_relate (q : Query) (source verb target : String) (data : Option Json) :
    Single (q.relate source verb target data) := by
  have rest (data : Record) : Single (do
      let source ← check (RecordId.parse (some source) none)
      let target ← check (RecordId.parse (some target) none)
      q.send (Link.text { source, verb, target, data })) :=
    single_check_bind _ fun _ => single_check_bind _ fun _ => single_send q _
  cases data with
  | none => exact rest ⟨[]⟩
  | some v => exact single_check_bind _ rest

theorem single_aggregate (q : Query) (a : Aggregate) : Single (q.aggregate a) :=
  (single_get _).map fun rows => (rows.head?.bind (Json.field? a.field)).getD .null

/-- Only an insertion can take more than one call. -/
theorem single_run (q : Query) {r : Run} (other : ∀ data, r ≠ .insert data) : Single (q.run r) := by
  match r with
  | .get => exact (single_get q).map _
  | .first => exact (single_first q).map _
  | .exists => exact ((single_first q).map Option.isSome).map _
  | .find id => exact (single_find q id).map _
  | .insert data => exact absurd rfl (other data)
  | .update data => exact (single_update q data).map _
  | .delete => exact (single_send q _).map _
  | .relate source verb target data => exact (single_relate q source verb target data).map _
  | .count => exact ((single_aggregate q .count).map fun v => v.natural?.getD 0).map _
  | .aggregate a => exact (single_aggregate q a).map _

end Query

namespace Connection

/-! ### Rows -/

/-- The record that a row is created as, and its body. -/
def rowTarget (table : String) (row : Json) : Except Refusal (RecordId × Record) := do
  let body ← Record.require row
  let target ← RecordId.forRecord table body
  let _ ← target.requireTable
  return (target, body)

theorem createRow_eq (table : String) (row : Json) :
    createRow table row = check (rowTarget table row) >>= fun t => request (.create t.1 t.2) := by
  unfold createRow rowTarget
  simp only [check_bind, bind_assoc]
  rfl

theorem single_createRow (table : String) (row : Json) : Single (createRow table row) := by
  rw [createRow_eq]
  exact single_check_bind _ fun _ => single_request _

/-- How rows are created in turn: up to the first that is refused, before a call of its own, or
that fails. -/
inductive RowsRun (table : String) :
    List Json → Except Error (List Json) → List (Call × Reply) → Prop
  | done : RowsRun table [] (.ok []) []
  | refused {row : Json} {rest : List Json} {cause : Refusal}
      (bad : rowTarget table row = .error cause) :
      RowsRun table (row :: rest) (.error (.refusal cause)) []
  | failed {row : Json} {rest : List Json} {target : RecordId} {body : Record} {e : Error}
      (good : rowTarget table row = .ok (target, body)) :
      RowsRun table (row :: rest) (.error e) [(.create target body, .error e)]
  | created {row v : Json} {rest : List Json} {target : RecordId} {body : Record}
      {result : Except Error (List Json)} {exchanges : List (Call × Reply)}
      (good : rowTarget table row = .ok (target, body))
      (later : RowsRun table rest result exchanges) :
      RowsRun table (row :: rest) (result.map (v :: ·)) ((.create target body, .ok v) :: exchanges)

theorem rowsRun {σ : Type} (perform : Perform σ) (table : String) (rows : List Json) (s : σ) :
    RowsRun table rows (run perform (createRows table rows) s).result
      (run perform (createRows table rows) s).exchanges := by
  induction rows generalizing s with
  | nil => exact .done
  | cons row rest ih =>
    have split : createRows table (row :: rest) = check (rowTarget table row) >>= fun t =>
        request (.create t.1 t.2) >>= fun v => (v :: ·) <$> createRows table rest := by
      rw [createRows, createRow_eq, bind_assoc]
      rfl
    rw [split]
    cases h : rowTarget table row with
    | error cause => exact .refused h
    | ok t =>
      obtain ⟨target, body⟩ := t
      -- The row is good, so its request comes first; the reply decides on the rest.
      have taken : check (Except.ok (target, body)) >>= (fun t =>
          request (.create t.1 t.2) >>= fun v => (v :: ·) <$> createRows table rest) =
        request (.create target body) >>= fun v => (v :: ·) <$> createRows table rest := rfl
      rw [taken]
      rcases reply : perform (.create target body) s with ⟨e | v, t⟩
      · rw [run_request_bind_error reply]
        exact .failed h
      · rw [run_request_bind_ok reply, run_map]
        exact .created h (ih t)

/-! ### Upserts -/

/-- The query that looks a record up by its columns. -/
def lookup (table : String) (filters : List Filter) : Query :=
  { matching table filters with limit := some 1 }

/-- The id of the first record among those found. -/
def foundId? (v : Json) : Option String :=
  ((Query.rows v).head?.bind (Json.field? "id")).bind Json.idText?

/-- What follows the look-up of a record by its columns. -/
def settle (target : RecordId) (table : String) (body : Record) (v : Json) : Plan Json :=
  match foundId? v with
  | some id => check (RecordId.parse (some table) (some id)) >>= fun existing =>
      request (.update existing body)
  | none => request (.create target body)

theorem upsertByKeys_eq (target : RecordId) (table : String) (body : Record) (keys : List String) :
    upsertByKeys target table body keys =
      check (keys.mapM (keyFilter target body)) >>= fun filters =>
        request (.query (lookup table filters).selectText) >>= settle target table body := by
  unfold upsertByKeys
  congr 1
  funext filters
  have sent : (lookup table filters).send (lookup table filters).selectText =
      request (.query (lookup table filters).selectText) := Query.send_of_bound rfl _
  unfold Query.first Query.get
  change (((lookup table filters).send (lookup table filters).selectText >>= fun v =>
    pure (Query.rows v)) >>= fun rows => pure rows.head?) >>= _ = _
  rw [sent, bind_assoc, bind_assoc]
  rfl

/-- An upsert by columns, with the record that its target names and the filters of its columns. -/
structure ByColumns (target : String) (data : Json) (keys : List String) (body : Record)
    (named : RecordId) (table : String) (filters : List Filter) : Prop where
  shaped : Record.require data = .ok body
  plain : RecordId.separator ∉ target.toList
  columns : keys ≠ [] ∧ keys ≠ idKeys
  own : RecordId.forRecord target body = .ok named
  tabled : named.requireTable = .ok table
  filtered : keys.mapM (keyFilter named body) = .ok filters

/-- An upsert by id, with the record that its target and body name. -/
structure ById (target : String) (data : Json) (keys : List String) (body : Record)
    (named : RecordId) (table : String) : Prop where
  shaped : Record.require data = .ok body
  keyed : keys = [] ∨ keys = idKeys
  own : RecordId.forRecord target body = .ok named
  tabled : named.requireTable = .ok table
  identified : ∃ id, named.requireId "upsert" = .ok id

/-- The write that follows the look-up of a record by its id. -/
def writeById (target : RecordId) (body : Record) (v : Json) : Call :=
  if v.isEmpty then .create target body else .update target body

theorem upsertById_eq (target : RecordId) (body : Record) :
    upsertById target body =
      request (.select target) >>= fun v => request (writeById target body v) := by
  unfold upsertById
  congr 1
  funext v
  exact (apply_ite request _ _ _).symm

theorem upsert_of_byId {target : String} {data : Json} {keys : List String} {body : Record}
    {named : RecordId} {table : String} (h : ById target data keys body named table) :
    upsert target data keys =
      request (.select named) >>= fun v => request (writeById named body v) := by
  have asked : (if keys = [] then idKeys else keys) = idKeys := by
    rcases h.keyed with rfl | rfl <;> rfl
  obtain ⟨id, given⟩ := h.identified
  unfold upsert
  rw [h.shaped, check_ok_bind]
  dsimp only
  rw [asked, if_neg (fun keyed => keyed.2 rfl), h.own, check_ok_bind, h.tabled, check_ok_bind,
    if_pos rfl, given]
  exact upsertById_eq named body

theorem upsert_of_byColumns {target : String} {data : Json} {keys : List String} {body : Record}
    {named : RecordId} {table : String} {filters : List Filter}
    (h : ByColumns target data keys body named table filters) :
    upsert target data keys =
      request (.query (lookup table filters).selectText) >>= settle named table body := by
  have asked : (if keys = [] then idKeys else keys) = keys := if_neg h.columns.1
  have free : ¬ (RecordId.separator ∈ target.toList ∧ keys ≠ idKeys) := fun both => h.plain both.1
  unfold upsert
  rw [asked, h.shaped, check_ok_bind]
  dsimp only
  rw [if_neg free, h.own, check_ok_bind, h.tabled, check_ok_bind, if_neg h.columns.2,
    upsertByKeys_eq, h.filtered, check_ok_bind]

theorem upsert_cases (target : String) (data : Json) (keys : List String) :
    (∃ e, upsert target data keys = fail (.refusal e)) ∨
    (∃ body named table, ById target data keys body named table ∧
      upsert target data keys =
        request (.select named) >>= fun v => request (writeById named body v)) ∨
    ∃ body named table filters, ByColumns target data keys body named table filters ∧
      upsert target data keys =
        request (.query (lookup table filters).selectText) >>= settle named table body := by
  have chosen : (if keys = [] then idKeys else keys) = idKeys ↔ keys = [] ∨ keys = idKeys := by
    split <;> simp_all
  unfold upsert
  cases shaped : Record.require data with
  | error e => exact Or.inl ⟨e, rfl⟩
  | ok body =>
  rw [check_ok_bind]
  -- The default for the keys is kept apart, so that only the branches of the operation split.
  generalize asked : (if keys = [] then idKeys else keys) = columns at chosen ⊢
  dsimp only
  split
  · exact Or.inl ⟨_, rfl⟩
  next free =>
  cases own : RecordId.forRecord target body with
  | error e => exact Or.inl ⟨e, rfl⟩
  | ok named =>
  rw [check_ok_bind]
  cases tabled : named.requireTable with
  | error e => exact Or.inl ⟨e, rfl⟩
  | ok table =>
  rw [check_ok_bind]
  split
  · next byId =>
    cases given : named.requireId "upsert" with
    | error e => exact Or.inl ⟨e, rfl⟩
    | ok id =>
      exact Or.inr (Or.inl ⟨body, named, table, ⟨shaped, chosen.mp byId, own, tabled, id, given⟩,
        upsertById_eq named body⟩)
  next byColumns =>
  have given := not_or.mp (mt chosen.mpr byColumns)
  obtain rfl : keys = columns := (if_neg given.1).symm.trans asked
  rw [upsertByKeys_eq]
  cases filtered : keys.mapM (keyFilter named body) with
  | error e => exact Or.inl ⟨e, rfl⟩
  | ok filters =>
  have plain : RecordId.separator ∉ target.toList := fun member => free ⟨member, byColumns⟩
  exact Or.inr (Or.inr ⟨body, named, table, filters,
    ⟨shaped, plain, given, own, tabled, filtered⟩, rfl⟩)

theorem settle_cases (target : RecordId) (table : String) (body : Record) (v : Json) :
    (∃ id cause, foundId? v = some id ∧ RecordId.parse (some table) (some id) = .error cause ∧
      settle target table body v = fail (.refusal cause)) ∨
    ∃ c, settle target table body v = request c ∧
      ((foundId? v = none ∧ c = .create target body) ∨
        ∃ id existing, foundId? v = some id ∧
          RecordId.parse (some table) (some id) = .ok existing ∧ c = .update existing body) := by
  unfold settle
  split
  · next id found =>
    cases own : RecordId.parse (some table) (some id) with
    | error cause => exact Or.inl ⟨id, cause, found, own, rfl⟩
    | ok existing => exact Or.inr ⟨_, rfl, Or.inr ⟨id, existing, found, own, rfl⟩⟩
  · next nothing => exact Or.inr ⟨_, rfl, Or.inl ⟨nothing, rfl⟩⟩

end Connection

end RecordClient
