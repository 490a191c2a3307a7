import RecordClient.Proofs.Query.Literal
import RecordClient.Proofs.Wire.Agreement
/-!
# Writes and the payload limit

A body over the limit is written through query text. `oversized_write_keeps_iff` shows what that
text holds of the body, and when it holds all of it; `limit_decides_route_iff` when the limit
decides nothing but the route.
-/
namespace RecordClient

namespace ContentWrite

def recordCall : ContentWrite → RecordCall
  | create => .create
  | update => .update

def verb : ContentWrite → String
  | create => "CREATE"
  | update => "UPDATE"

theorem text_eq (w : ContentWrite) (target : RecordId) (data : Record) :
    w.text target data =
      w.verb ++ " " ++ target.rendered ++ " CONTENT " ++ Literal.ofRecord data := by
  cases w <;> rfl

/-- The way that a write takes under a limit. -/
def route (w : ContentWrite) (limit : Nat) (target : RecordId) (body : Record) :
    Except Refusal Http.Route :=
  match w with
  | create => Http.Route.create limit target body
  | update => Http.Route.update limit target body

/-- The record that a body over the limit is written to. A creation does not ask for its table. -/
def subject (w : ContentWrite) (target : RecordId) (body : Record) : Except Refusal RecordId :=
  match w with
  | create => RecordId.forRecord target.raw body
  | update => RecordCall.update.resolve target body

theorem route_of_oversized (w : ContentWrite) {limit : Nat} {body : Record}
    (large : Http.Route.isOversized limit body = true) (target : RecordId) :
    w.route limit target body =
      (w.subject target body).map fun named => Http.Route.ofWrite w named body := by
  cases w with
  | create =>
    show Http.Route.create limit target body = (RecordId.forRecord target.raw body).map _
    unfold Http.Route.create
    rw [large]
    cases RecordId.forRecord target.raw body <;> rfl
  | update =>
    show Http.Route.update limit target body = (RecordId.forRecord target.raw body >>= _).map _
    unfold Http.Route.update
    rw [large]
    cases RecordId.forRecord target.raw body with
    | error e => rfl
    | ok named =>
      obtain ⟨_ | table, _ | id⟩ := named
      all_goals rfl

theorem route_of_fitting (w : ContentWrite) {limit : Nat} {body : Record}
    (fits : Http.Route.isOversized limit body = false) (target : RecordId) :
    w.route limit target body = (w.recordCall.resolve target body).map fun named =>
      w.recordCall.route named body := by
  cases w with
  | create => exact Http.create_route fits target
  | update => exact Http.update_route fits target

theorem forRecord_of_resolve {w : ContentWrite} {target named : RecordId} {body : Record}
    (h : w.recordCall.resolve target body = .ok named) :
    RecordId.forRecord target.raw body = .ok named ∧ named.table.isSome := by
  have both : RecordId.forRecord target.raw body >>= w.recordCall.demand = .ok named := by
    cases w <;> exact h
  obtain ⟨⟨table, id⟩, found, asked⟩ := bind_eq_ok.mp both
  cases table with
  | none => cases asked
  | some table =>
    cases w <;> cases id <;> cases asked
    all_goals exact ⟨found, rfl⟩

theorem forRecord_of_subject {w : ContentWrite} {target named : RecordId} {body : Record}
    (h : w.subject target body = .ok named) : RecordId.forRecord target.raw body = .ok named := by
  cases w with
  | create => exact h
  | update => exact (forRecord_of_resolve (w := update) h).1

end ContentWrite

/-! ### What an oversized write holds -/

/-- Each field of a body is in the content that is written, or it is the id and the record written
to has it; null is no id. -/
def Record.KeptBy (body content : Record) (named : RecordId) : Prop :=
  ∀ key v, body.get? key = some v →
    content.get? key = some v ∨ (key = "id" ∧ (v = .null ∨ v.Names named))

theorem Record.get?_erase (body : Record) (key k : String) :
    (body.erase key).get? k = if k = key then none else body.get? k :=
  Json.Fields.get?_erase key body.fields k

theorem Record.keptBy_erase_iff {body : Record} {named : RecordId} :
    body.KeptBy (body.erase "id") named ↔
      ∀ v, body.get? "id" = some v → v = .null ∨ v.Names named := by
  constructor
  · intro kept v found
    rcases kept "id" v found with still | ⟨-, carried⟩
    · rw [get?_erase, if_pos rfl] at still
      cases still
    · exact carried
  · intro carried key v found
    by_cases h : key = "id"
    · subst h
      exact Or.inr ⟨rfl, carried v found⟩
    · rw [get?_erase, if_neg h]
      exact Or.inl found

/-- A body over the limit is written by a statement with the record that target and body name and a
literal of the body without its id. The id is that of the record exactly when it is a number or a
string that names one; so no field is lost exactly when the id, if there is one, is such a value or
null. -/
theorem oversized_write_keeps_iff (w : ContentWrite) {limit : Nat} {target : RecordId}
    {body : Record} {route : Http.Route} (large : limit < body.toJson.size)
    (taken : w.route limit target body = .ok route) :
    ∃ named literal,
      RecordId.forRecord target.raw body = .ok named ∧
      route = Http.Route.query (w.verb ++ " " ++ named.rendered ++ " CONTENT " ++ literal) ∧
      (∀ number, (∀ n ∈ Literal.numbers (body.erase "id").toJson, number n.text = some n) →
        Literal.decode? number literal = some ((body.erase "id").toJson, "")) ∧
      (∀ key, (body.erase "id").get? key = if key = "id" then none else body.get? key) ∧
      (∀ v, body.get? "id" = some v → (v.Names named ↔ v.givesId = true)) ∧
      (body.KeptBy (body.erase "id") named ↔
        ∀ v, body.get? "id" = some v → v = .null ∨ v.givesId = true) := by
  rw [w.route_of_oversized (decide_eq_true large)] at taken
  cases written : w.subject target body with
  | error e =>
    rw [written] at taken
    cases taken
  | ok named =>
    rw [written] at taken
    cases taken
    have found := ContentWrite.forRecord_of_subject written
    refine ⟨named, Literal.ofRecord (body.erase "id"), found, ?_, ?_, body.get?_erase "id", ?_, ?_⟩
    · exact congrArg Http.Route.query (w.text_eq named (body.erase "id"))
    · intro number reads
      have decoded := Literal.decode?_ofJson (fun n => id) (body.erase "id").toJson reads "" trivial
      rwa [String.append_empty] at decoded
    · exact fun v => RecordId.names_iff_givesId found
    · rw [Record.keptBy_erase_iff]
      exact forall₂_congr fun v given => or_congr_right (RecordId.names_iff_givesId found given)

def sampleLarge (id : Json) : Record := ⟨[("a", .ofNat 1), ("id", id)]⟩

/-- An id that comes as a token of its table goes with the target. -/
theorem oversized_update_keeps_sample :
    8 < (sampleLarge (.string "t:x")).toJson.size ∧
      ContentWrite.update.route 8 { table := some "t" } (sampleLarge (.string "t:x")) =
        .ok (.query "UPDATE t:x CONTENT \x7b\"a\": 1\x7d") ∧
      ∃ named, RecordId.forRecord "t" (sampleLarge (.string "t:x")) = .ok named ∧
        (sampleLarge (.string "t:x")).KeptBy ((sampleLarge (.string "t:x")).erase "id") named := by
  have large : 8 < (sampleLarge (.string "t:x")).toJson.size := by decide +kernel
  have taken : ContentWrite.update.route 8 { table := some "t" } (sampleLarge (.string "t:x")) =
      .ok (.query "UPDATE t:x CONTENT \x7b\"a\": 1\x7d") := by decide +kernel
  obtain ⟨named, -, found, -, -, -, -, kept⟩ := oversized_write_keeps_iff .update large taken
  refine ⟨large, taken, named, found, kept.mpr fun v given => Or.inr ?_⟩
  cases given
  decide

/-- A creation of a body whose id is a truth value: over the limit, neither the target nor the
content has the id. -/
theorem oversized_create_drops_id :
    8 < (sampleLarge (.bool true)).toJson.size ∧
      ContentWrite.create.route 8 { table := some "t" } (sampleLarge (.bool true)) =
        .ok (.query "CREATE t CONTENT \x7b\"a\": 1\x7d") ∧
      RecordId.forRecord "t" (sampleLarge (.bool true)) = .ok { table := some "t" } ∧
      (sampleLarge (.bool true)).get? "id" = some (.bool true) ∧
      ¬ (Json.bool true).Names { table := some "t" } ∧
      ContentWrite.create.route 100 { table := some "t" } (sampleLarge (.bool true)) =
        .ok ⟨.post, ["key", "t"], .record (sampleLarge (.bool true))⟩ := by
  refine ⟨by decide +kernel, by decide +kernel, by decide +kernel, rfl, ?_, by decide +kernel⟩
  rintro ⟨text, id, shown, -⟩
  cases shown

/-! ### What the limit decides -/

/-- Whether a route goes to a resource of its own, and not to query text. -/
def Http.Route.IsResource (r : Http.Route) : Prop := r.segments.head? = some "key"

theorem Http.Route.not_isResource_query (text : String) : ¬ (query text).IsResource := by
  intro same
  exact absurd (Option.some.inj same) (by decide)

/-- A route that writes a body to a record: to its resource, or by a statement about it. -/
def ContentWrite.Addresses (w : ContentWrite) (named : RecordId) (body : Record)
    (r : Http.Route) : Prop :=
  (named.table.isSome ∧ r = w.recordCall.route named body) ∨ r = Http.Route.ofWrite w named body

/-- Two ways of a write that are refused for the same reason or write to the same record. -/
def ContentWrite.SameTarget (w : ContentWrite) (target : RecordId) (body : Record)
    (a b : Except Refusal Http.Route) : Prop :=
  (∃ e, a = .error e ∧ b = .error e) ∨
    ∃ named r s, RecordId.forRecord target.raw body = .ok named ∧
      (a = .ok r ∧ w.Addresses named body r) ∧ (b = .ok s ∧ w.Addresses named body s)

/-- The target and the body name no table between them. -/
def Tableless (target : RecordId) (body : Record) : Prop :=
  ∃ named, RecordId.forRecord target.raw body = .ok named ∧ named.table = none

theorem not_tableless {target : RecordId} (well : target.WellFormed) (tabled : target.table.isSome)
    (body : Record) : ¬ Tableless target body := by
  rintro ⟨named, found, without⟩
  obtain ⟨table, named_table⟩ := Option.isSome_iff_exists.mp tabled
  have kept := (RecordId.forRecord_raw well named_table found).1
  rw [without] at kept
  cases kept

namespace ContentWrite

variable {w : ContentWrite} {target : RecordId} {body : Record}

/-- Both routes of a write are refused alike, or go to one record with a table; but a creation
without a table is only refused below the limit. -/
theorem subject_cases (w : ContentWrite) (target : RecordId) (body : Record) :
    (∃ e, w.subject target body = .error e ∧ w.recordCall.resolve target body = .error e) ∨
    (∃ named, w.subject target body = .ok named ∧ w.recordCall.resolve target body = .ok named) ∨
    (w = create ∧ Tableless target body ∧ ∃ named, w.subject target body = .ok named ∧
      w.recordCall.resolve target body = .error .missingTable) := by
  cases w with
  | update =>
    cases resolved : RecordCall.update.resolve target body with
    | error e => exact Or.inl ⟨e, resolved, resolved⟩
    | ok named => exact Or.inr (Or.inl ⟨named, resolved, resolved⟩)
  | create =>
    have resolve : RecordCall.create.resolve target body =
        RecordId.forRecord target.raw body >>= RecordCall.create.demand := rfl
    cases found : RecordId.forRecord target.raw body with
    | error e => exact Or.inl ⟨e, found, by rw [recordCall, resolve, found]; rfl⟩
    | ok named =>
      obtain ⟨_ | table, id⟩ := named
      · exact Or.inr (Or.inr ⟨rfl, ⟨_, found, rfl⟩, _, found, by
          rw [recordCall, resolve, found]; rfl⟩)
      · exact Or.inr (Or.inl ⟨_, found, by rw [recordCall, resolve, found]; cases id <;> rfl⟩)

theorem route_of_resolve {named : RecordId} (subject : w.subject target body = .ok named)
    (resolved : w.recordCall.resolve target body = .ok named) (limit : Nat) :
    ∃ r, w.route limit target body = .ok r ∧ w.Addresses named body r := by
  cases large : Http.Route.isOversized limit body with
  | true =>
    rw [w.route_of_oversized large, subject]
    exact ⟨_, rfl, Or.inr rfl⟩
  | false =>
    rw [w.route_of_fitting large, resolved]
    exact ⟨_, rfl, Or.inl ⟨(forRecord_of_resolve resolved).2, rfl⟩⟩

theorem route_of_refused {e : Refusal} (subject : w.subject target body = .error e)
    (resolved : w.recordCall.resolve target body = .error e) (limit : Nat) :
    w.route limit target body = .error e := by
  cases large : Http.Route.isOversized limit body with
  | true =>
    rw [w.route_of_oversized large, subject]
    rfl
  | false =>
    rw [w.route_of_fitting large, resolved]
    rfl

/-- Under limits on the same side of the size, a write takes the same route. -/
theorem route_congr {l₁ l₂ : Nat} (same : l₁ < body.toJson.size ↔ l₂ < body.toJson.size) :
    w.route l₁ target body = w.route l₂ target body := by
  by_cases h : l₁ < body.toJson.size
  · rw [w.route_of_oversized (decide_eq_true h), w.route_of_oversized (decide_eq_true (same.mp h))]
  · have h₂ := mt same.mpr h
    rw [w.route_of_fitting (decide_eq_false h), w.route_of_fitting (decide_eq_false h₂)]

theorem SameTarget.accepted_iff {a b : Except Refusal Http.Route}
    (same : w.SameTarget target body a b) : (∃ r, a = .ok r) ↔ ∃ r, b = .ok r := by
  rcases same with ⟨e, rfl, rfl⟩ | ⟨_, r, s, -, ⟨rfl, -⟩, ⟨rfl, -⟩⟩
  · exact Iff.rfl
  · exact ⟨fun _ => ⟨s, rfl⟩, fun _ => ⟨r, rfl⟩⟩

/-- Over the limit there is a statement, within it a refusal. -/
theorem accepted_of_tableless {named : RecordId} (subject : create.subject target body = .ok named)
    (resolved : create.recordCall.resolve target body = .error .missingTable) (limit : Nat) :
    (∃ r, create.route limit target body = .ok r) ↔ limit < body.toJson.size := by
  by_cases large : limit < body.toJson.size
  · rw [route_of_oversized create (decide_eq_true large), subject]
    exact ⟨fun _ => large, fun _ => ⟨_, rfl⟩⟩
  · rw [route_of_fitting create (decide_eq_false large), resolved]
    refine ⟨?_, fun larger => absurd larger large⟩
    rintro ⟨r, ⟨⟩⟩

theorem sameTarget_iff (l₁ l₂ : Nat) :
    w.SameTarget target body (w.route l₁ target body) (w.route l₂ target body) ↔
      (w = create → Tableless target body →
        (l₁ < body.toJson.size ↔ l₂ < body.toJson.size)) := by
  rcases w.subject_cases target body with ⟨e, subject, resolved⟩ | ⟨named, subject, resolved⟩ |
    ⟨rfl, tableless, named, subject, resolved⟩
  · have refused := route_of_refused subject resolved
    refine ⟨fun _ => ?_, fun _ => Or.inl ⟨e, refused l₁, refused l₂⟩⟩
    rintro rfl ⟨named, found, -⟩
    cases found.symm.trans subject
  · obtain ⟨found, tabled⟩ := forRecord_of_resolve resolved
    obtain ⟨r, first⟩ := route_of_resolve subject resolved l₁
    obtain ⟨s, second⟩ := route_of_resolve subject resolved l₂
    refine ⟨fun _ => ?_, fun _ => Or.inr ⟨named, r, s, found, first, second⟩⟩
    rintro - ⟨other, same, without⟩
    cases same.symm.trans found
    rw [without] at tabled
    cases tabled
  · have accepted := accepted_of_tableless subject resolved
    refine ⟨fun same _ _ => (accepted l₁).symm.trans (same.accepted_iff.trans (accepted l₂)),
      fun agree => ?_⟩
    rw [route_congr (agree rfl tableless)]
    by_cases large : l₂ < body.toJson.size
    · rw [route_of_oversized create (decide_eq_true large), subject]
      exact Or.inr ⟨named, _, _, forRecord_of_subject subject, ⟨rfl, Or.inr rfl⟩, ⟨rfl, Or.inr rfl⟩⟩
    · rw [route_of_fitting create (decide_eq_false large), resolved]
      exact Or.inl ⟨.missingTable, rfl, rfl⟩

theorem isResource_iff {limit : Nat} {r : Http.Route} (taken : w.route limit target body = .ok r) :
    r.IsResource ↔ body.toJson.size ≤ limit := by
  by_cases large : limit < body.toJson.size
  · rw [w.route_of_oversized (decide_eq_true large)] at taken
    cases subject : w.subject target body <;> rw [subject] at taken <;> cases taken
    exact ⟨fun resource => absurd resource (Http.Route.not_isResource_query _),
      fun fits => absurd large (Nat.not_lt.mpr fits)⟩
  · rw [w.route_of_fitting (decide_eq_false large)] at taken
    cases resolved : w.recordCall.resolve target body <;> rw [resolved] at taken <;> cases taken
    exact ⟨fun _ => Nat.le_of_not_lt large, fun _ => rfl⟩

end ContentWrite

/-- Under any two limits an update is refused alike or writes to the same record, and so does a
creation exactly unless target and body name no table and the limits differ about the size; a
target with a table always does. The resource is taken exactly for a body within the limit, so a
greater limit only moves a write from query text to its resource. -/
theorem limit_decides_route_iff (target : RecordId) (body : Record) (l₁ l₂ : Nat) :
    ContentWrite.SameTarget .update target body (Http.Route.update l₁ target body)
      (Http.Route.update l₂ target body) ∧
    (ContentWrite.SameTarget .create target body (Http.Route.create l₁ target body)
      (Http.Route.create l₂ target body) ↔
        (Tableless target body → (l₁ < body.toJson.size ↔ l₂ < body.toJson.size))) ∧
    (target.WellFormed → target.table.isSome → ¬ Tableless target body) ∧
    (∀ (w : ContentWrite) (limit : Nat) (r : Http.Route), w.route limit target body = .ok r →
      (r.IsResource ↔ body.toJson.size ≤ limit)) ∧
    (l₁ ≤ l₂ → ∀ (w : ContentWrite) (r : Http.Route),
      (w.route l₁ target body = .ok r → r.IsResource → w.route l₂ target body = .ok r) ∧
      (w.route l₂ target body = .ok r → ¬ r.IsResource → w.route l₁ target body = .ok r)) := by
  refine ⟨?_, ?_, fun well tabled => not_tableless well tabled body,
    fun w limit r => ContentWrite.isResource_iff, fun greater w r => ⟨?_, ?_⟩⟩
  · exact (ContentWrite.sameTarget_iff (w := .update) l₁ l₂).mpr fun other => by cases other
  · exact (ContentWrite.sameTarget_iff (w := .create) l₁ l₂).trans
      ⟨fun agree => agree rfl, fun agree _ => agree⟩
  · intro taken resource
    have fits := (ContentWrite.isResource_iff taken).mp resource
    rw [← taken]
    exact ContentWrite.route_congr (by omega)
  · intro taken text
    have large := mt (ContentWrite.isResource_iff taken).mpr text
    rw [← taken]
    exact ContentWrite.route_congr (by omega)

/-- A body that gives an id but no table: over the limit it is written by a statement in which the
id reads as the table, within the limit it is refused. -/
theorem tableless_create_depends_on_limit :
    Http.Route.create 8 {} (sampleLarge (.string "x")) =
        .ok (.query "CREATE x CONTENT \x7b\"a\": 1\x7d") ∧
      Http.Route.create 100 {} (sampleLarge (.string "x")) = .error .missingTable ∧
      Http.Route.update 8 {} (sampleLarge (.string "x")) = .error .missingTable := by
  decide +kernel

end RecordClient
