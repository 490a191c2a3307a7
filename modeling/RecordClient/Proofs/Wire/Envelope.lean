import Mathlib.Tactic.MkIffOfInductiveProp
import RecordClient.Proofs.Results
import RecordClient.Wire.Envelope
/-!
# Answers to query text

Which envelopes values are forms of (`Shows`), and what a list of them comes to. The list is read
as a whole before its first failed statement is looked for; `first_failure_reported_iff` says when
that statement still decides the answer.
-/
namespace RecordClient.Envelope

/-! ### Forms of an envelope -/

/-- What a value gives under the name of a field: in an object by its key, in a list by its
place. -/
def part? (name : String) : Json → Option Json
  | .object fields => Json.Fields.get? fields name
  | .array items => Json.Fields.get? (fieldNames.zip items) name
  | _ => none

/-- An object without a key that is there twice, or a list of one to four fields. -/
def Shaped : Json → Prop
  | .object fields => (fields.map Prod.fst).Nodup
  | .array items => items ≠ [] ∧ items.length ≤ fieldNames.length
  | _ => False

instance : DecidablePred Shaped
  | .object fields => inferInstanceAs (Decidable (fields.map Prod.fst).Nodup)
  | .array items => inferInstanceAs (Decidable (items ≠ [] ∧ items.length ≤ fieldNames.length))
  | .null | .bool _ | .number _ | .string _ => isFalse id

/-- The value is a form of the envelope. Only a status has to be given, and a null is like a field
that is not given. -/
structure Shows (v : Json) (e : Envelope) : Prop where
  shaped : Shaped v
  status : part? "status" v = some (.string e.status)
  result : (part? "result" v).getD .null = e.result
  detail : (part? "detail" v).bind Json.nonNull? = e.detail
  time : (part? "time" v).getD .null = e.time.elim .null .string

/-- What fields make of a draft. -/
@[mk_iff]
structure Draft.Filled (given : Json.Fields) (d filled : Draft) : Prop where
  status : (given.get? "status").elim (.ok d.status) (fun v => some <$> Json.asString v) =
    .ok filled.status
  result : (given.get? "result").getD d.result = filled.result
  detail : (given.get? "detail").elim d.detail Json.nonNull? = filled.detail
  time : (given.get? "time").elim (.ok d.time) (Json.asOption Json.asString) = .ok filled.time

theorem get?_of_absent {given : Json.Fields} {key : String} (absent : key ∉ given.map Prod.fst) :
    given.get? key = none := by
  rw [Json.Fields.get?, List.lookup_eq_none_iff]
  intro field member
  have other : key ≠ field.1 := fun same => absent (same ▸ List.mem_map_of_mem member)
  simpa using other

theorem foldlM_setField_iff {given : Json.Fields} (distinct : (given.map Prod.fst).Nodup)
    {d filled : Draft} :
    given.foldlM (fun s (key, value) => Draft.setField s key value) d = .ok filled ↔
      Draft.Filled given d filled := by
  induction given generalizing d with
  | nil =>
    obtain ⟨status, result, detail, time⟩ := filled
    rw [Draft.filled_iff]
    constructor
    · rintro ⟨⟩
      exact ⟨rfl, rfl, rfl, rfl⟩
    · rintro ⟨⟨⟩, ⟨⟩, ⟨⟩, ⟨⟩⟩
      rfl
  | cons field rest ih =>
    obtain ⟨key, v⟩ := field
    obtain ⟨absent, distinct⟩ := List.nodup_cons.mp distinct
    have own := get?_of_absent absent
    rw [List.foldlM_cons, bind_eq_ok]
    simp only [ih distinct, Draft.filled_iff, Json.Fields.get?_cons]
    unfold Draft.setField
    split
    · rw [own]
      cases v <;> simp [Json.asString, Json.wrongType, bind_eq_ok, pure, Except.pure]
    · rw [own]
      simp [pure, Except.pure]
    · rw [own]
      simp [pure, Except.pure]
    · rw [own]
      simp [pure, Except.pure, bind_eq_ok, and_assoc, and_left_comm, and_comm]
    · next status result detail time =>
      simp [pure, Except.pure, Ne.symm status, Ne.symm result, Ne.symm detail, Ne.symm time]

theorem get?_filter {declared : List String} {name : String} (member : name ∈ declared)
    (fields : Json.Fields) :
    Json.Fields.get? (fields.filter fun field => declared.contains field.1) name =
      fields.get? name := by
  induction fields with
  | nil => rfl
  | cons field rest ih =>
    obtain ⟨key, v⟩ := field
    rw [List.filter_cons, Json.Fields.get?_cons, ← ih]
    split
    · exact Json.Fields.get?_cons key v _ name
    · next undeclared =>
      have other : name ≠ key := fun same => undeclared (by simpa using same ▸ member)
      rw [if_neg other]

theorem nodup_zip (items : List Json) : ((fieldNames.zip items).map Prod.fst).Nodup := by
  rw [List.zip_eq_zip_take_min, List.map_fst_zip (by simp)]
  exact (List.take_sublist _ fieldNames).nodup (by decide)

/-- The fields that are read of a value, and their parts. -/
theorem givenFields_of_shaped {v : Json} (shaped : Shaped v) (expected : String) :
    ∃ given, Json.givenFields fieldNames expected v = .ok given ∧
      (given.map Prod.fst).Nodup ∧
      (∀ name ∈ fieldNames, Json.Fields.get? given name = part? name v) ∧
      Json.checkLength fieldNames v = .ok () ∧ v ≠ .array [] := by
  cases v with
  | object fields =>
    refine ⟨_, rfl, ?_, fun name member => get?_filter member fields, rfl, by simp⟩
    exact (List.filter_sublist.map Prod.fst).nodup shaped
  | array items =>
    obtain ⟨some_item, short⟩ := shaped
    exact ⟨_, rfl, nodup_zip items, fun name _ => rfl, if_neg (Nat.not_lt.mpr short),
      by simpa using some_item⟩
  | null | bool _ | number _ | string _ => exact shaped.elim

theorem given_status_iff {given : Option Json} {status : String} :
    given.elim (.ok none) (fun v => some <$> Json.asString v) = .ok (some status) ↔
      given = some (.string status) := by
  cases given with
  | none => simp
  | some v => cases v <;> simp [Json.asString, Json.wrongType]

theorem given_time_iff {given : Option Json} {time : Option String} :
    given.elim (.ok none) (Json.asOption Json.asString) = .ok time ↔
      given.getD .null = time.elim .null .string := by
  cases given with
  | none => cases time <;> simp
  | some v =>
    cases v <;> cases time <;> simp [Json.asOption, Json.asString, Json.wrongType, Except.map]

theorem given_detail (given : Option Json) :
    given.elim none Json.nonNull? = given.bind Json.nonNull? := by
  cases given <;> rfl

/-- The envelope of a draft, which must have its status. -/
def Draft.finish (d : Draft) : Except Json.Misfit Envelope :=
  d.status.elim (.error (.missing "status")) fun status =>
    .ok { status, result := d.result, detail := d.detail, time := d.time }

theorem ofJson_of_given {v : Json} (filled : v ≠ .array []) {given : Json.Fields}
    (read : Json.givenFields fieldNames "struct StatementResult" v = .ok given)
    (short : Json.checkLength fieldNames v = .ok ()) :
    ofJson v =
      given.foldlM (fun s (key, value) => Draft.setField s key value) {} >>= Draft.finish := by
  unfold ofJson Json.asStructure
  rw [if_neg filled, read, short]
  change Except.bind (Except.bind (List.foldlM _ _ _) _) _ = Except.bind _ _
  cases List.foldlM (fun s (key, value) => Draft.setField s key value) {} given with
  | error m => rfl
  | ok d =>
    obtain ⟨_ | status, result, detail, time⟩ := d
    · rfl
    · rfl

theorem ofJson_eq_ok_iff {v : Json} (shaped : Shaped v) {e : Envelope} :
    ofJson v = .ok e ↔ Shows v e := by
  obtain ⟨given, read, distinct, parts, short, filled⟩ :=
    givenFields_of_shaped shaped "struct StatementResult"
  have filled_iff (d : Draft) : Draft.Filled given {} d ↔ _ := Draft.filled_iff given {} d
  simp only [parts "status" (by decide), parts "result" (by decide), parts "detail" (by decide),
    parts "time" (by decide), given_time_iff, given_detail] at filled_iff
  rw [ofJson_of_given filled read short, bind_eq_ok]
  simp only [foldlM_setField_iff distinct, filled_iff]
  constructor
  · rintro ⟨⟨_ | status, result, detail, time⟩, ⟨named, rest⟩, ⟨⟩⟩
    exact ⟨shaped, given_status_iff.mp named, rest.1, rest.2.1, rest.2.2⟩
  · intro shown
    exact ⟨⟨some e.status, e.result, e.detail, e.time⟩,
      ⟨given_status_iff.mpr shown.status, shown.result, shown.detail, shown.time⟩, rfl⟩

theorem Shows.read {v : Json} {e : Envelope} (h : Shows v e) : ofJson v = .ok e :=
  (ofJson_eq_ok_iff h.shaped).mpr h

/-- A value that is read as an envelope: if it is `Shaped`, one that shows an envelope. -/
def Readable (v : Json) : Prop := ∃ e, ofJson v = .ok e

/-! ### Answers -/

theorem listOfJson_array (items : List Json) : listOfJson (.array items) =
    (items.mapM ofJson).mapError fun m => .decode (.misfit m none) := rfl

theorem answer_of_read {items : List Json} {es : List Envelope}
    (read : items.mapM ofJson = .ok es) : answer (.array items) = (unwrap es).mapError .query := by
  rw [answer, listOfJson_array, read]
  rfl

theorem answer_of_misfit {items : List Json} {m : Json.Misfit}
    (bad : items.mapM ofJson = .error m) :
    answer (.array items) = .error (.wire (.decode (.misfit m none))) := by
  rw [answer, listOfJson_array, bad]
  rfl

theorem isOk_iff {e : Envelope} : e.isOk = true ↔ e.status = "OK" := decide_eq_true_iff

theorem unwrap_of_ok {es : List Envelope} (fine : ∀ e ∈ es, e.status = "OK") :
    unwrap es = .ok (resultOf (es.map Envelope.result)) := by
  have none_failed : es.find? (fun e => !e.isOk) = none := by
    rw [List.find?_eq_none]
    intro e member
    simp [isOk_iff.mpr (fine e member)]
  unfold unwrap
  rw [none_failed]

theorem unwrap_of_failed {oks rest : List Envelope} {failed : Envelope}
    (fine : ∀ e ∈ oks, e.status = "OK") (bad : failed.status ≠ "OK") :
    unwrap (oks ++ failed :: rest) = .error failed.failure := by
  have first : (oks ++ failed :: rest).find? (fun e => !e.isOk) = some failed := by
    rw [List.find?_append, List.find?_eq_none.mpr, Option.none_or, List.find?_cons_of_pos]
    · simpa using mt isOk_iff.mp bad
    · intro e member
      simp [isOk_iff.mpr (fine e member)]
  unfold unwrap
  rw [first]

theorem Shows.readAll {items : List Json} {es : List Envelope}
    (shown : List.Forall₂ Shows items es) : items.mapM ofJson = .ok es :=
  mapM_eq_ok_iff.mpr (shown.imp fun _ _ => Shows.read)

/-- Behind envelopes that are fine, one that failed decides the answer exactly when everything
behind it is an envelope too: it is reported with its status and its detail, or its result for want
of one. Otherwise the answer is what is wrong with the first value that is no envelope. If none
failed, the answer is null for no result, a single result as it is, and else the list of all. -/
theorem first_failure_reported_iff {before : List Json} {oks : List Envelope}
    (shown : List.Forall₂ Shows before oks) (fine : ∀ e ∈ oks, e.status = "OK") :
    (∀ (item : Json) (failed : Envelope) (tail : List Json), Shows item failed →
      failed.status ≠ "OK" →
      (answer (.array (before ++ item :: tail)) =
          .error (.query (.statement failed.status (failed.detail.getD failed.result))) ↔
        ∀ v ∈ tail, Readable v) ∧
      ∀ good v rest m, tail = good ++ v :: rest → (∀ g ∈ good, Readable g) →
        ofJson v = .error m →
        answer (.array (before ++ item :: tail)) = .error (.wire (.decode (.misfit m none)))) ∧
    (oks = [] → answer (.array before) = .ok .null) ∧
    (∀ e, oks = [e] → answer (.array before) = .ok e.result) ∧
    (2 ≤ oks.length → answer (.array before) = .ok (.array (oks.map Envelope.result))) := by
  have answered : answer (.array before) = .ok (resultOf (oks.map Envelope.result)) := by
    rw [answer_of_read (Shows.readAll shown), unwrap_of_ok fine]
    rfl
  refine ⟨fun item failed tail form bad => ⟨⟨fun reported => ?_, fun readable => ?_⟩, ?_⟩,
    ?_, ?_, ?_⟩
  · cases whole : (before ++ item :: tail).mapM ofJson with
    | error m =>
      rw [answer_of_misfit whole] at reported
      cases reported
    | ok es =>
      intro v member
      exact mapM_succeeds_iff.mp ⟨es, whole⟩ v (by simp [member])
  · obtain ⟨es, read⟩ := mapM_succeeds_iff.mpr readable
    have whole : (before ++ item :: tail).mapM ofJson = .ok (oks ++ failed :: es) := by
      rw [List.mapM_append, Shows.readAll shown, List.mapM_cons, form.read, read]
      rfl
    rw [answer_of_read whole, unwrap_of_failed fine bad]
    rfl
  · rintro good v rest m rfl readable misfit
    have ahead : before ++ item :: (good ++ v :: rest) = (before ++ item :: good) ++ v :: rest := by
      simp
    rw [ahead]
    refine answer_of_misfit (mapM_of_first_error (fun g member => ?_) misfit)
    rcases List.mem_append.mp member with old | later
    · exact mapM_succeeds_iff.mp ⟨oks, Shows.readAll shown⟩ g old
    · rcases List.mem_cons.mp later with rfl | later
      · exact ⟨failed, form.read⟩
      · exact readable g later
  · rintro rfl
    exact answered
  · rintro e rfl
    exact answered
  · intro several
    rw [answered]
    match oks, several with
    | _ :: _ :: _, _ => rfl

/-- A statement that failed, in the form of an object. -/
def sampleFailed : Json := .object [("detail", .string "x"), ("status", .string "ERR")]

theorem sampleFailed_shows : Shows sampleFailed { status := "ERR", detail := some (.string "x") } :=
  ⟨by decide, rfl, rfl, rfl, rfl⟩

/-- A statement that was fine, in the form of a list. -/
def sampleFine : Json := .array [.string "OK", .ofNat 1]

theorem sampleFine_shows : Shows sampleFine { status := "OK", result := .ofNat 1 } :=
  ⟨by decide, rfl, rfl, rfl, rfl⟩

theorem first_failure_reported_at_sample :
    List.Forall₂ Shows [sampleFine] [{ status := "OK", result := .ofNat 1 }] ∧
      answer (.array [sampleFine, sampleFailed, sampleFine]) =
        .error (.query (.statement "ERR" (.string "x"))) ∧
      answer (.array [sampleFine]) = .ok (.ofNat 1) := by
  have shown : List.Forall₂ Shows [sampleFine] [{ status := "OK", result := .ofNat 1 }] :=
    .cons sampleFine_shows .nil
  have all := first_failure_reported_iff shown (by decide)
  have reported := (all.1 sampleFailed _ [sampleFine] sampleFailed_shows (by decide)).1
  refine ⟨shown, reported.mpr ?_, all.2.2.1 _ rfl⟩
  rintro v (_ | ⟨_, ⟨⟩⟩)
  exact ⟨_, sampleFine_shows.read⟩

/-- A number behind a statement that failed: the failure is not reported. -/
theorem malformed_tail_hides_failure :
    Shows sampleFailed { status := "ERR", detail := some (.string "x") } ∧
      answer (.array [sampleFailed, .ofNat 5]) =
        .error (.wire (.decode (.misfit
          (.wrongType (.number (.int 5)) "struct StatementResult") none))) ∧
      answer (.array [sampleFailed, .ofNat 5]) ≠
        .error (.query (.statement "ERR" (.string "x"))) := by
  refine ⟨sampleFailed_shows, rfl, by decide⟩

end RecordClient.Envelope
