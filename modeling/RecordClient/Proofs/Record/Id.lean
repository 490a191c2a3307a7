import Mathlib.Data.List.TakeWhile
import RecordClient.Proofs.Results
import RecordClient.Record.Id
/-!
# Reading record ids

Tokens only ever name `WellFormed` records, and so does what `merge_eq_ok_iff` says of two of them
together. Such a record is read back from its own token when it has a table.
-/
namespace RecordClient

namespace RecordId

/-! ### Cutting tokens -/

theorem colon_toList : (":" : String).toList = [separator] := by decide

theorem ne_separator {cs : List Char} (plain : separator ∉ cs) :
    ∀ c ∈ cs, decide (c ≠ separator) = true := by
  intro c member
  simpa using fun same : c = separator => plain (same ▸ member)

theorem cut_of_plain {token : String} (plain : separator ∉ token.toList) :
    cut token = (none, token) := by
  have nothing : token.toList.dropWhile (· ≠ separator) = [] :=
    List.dropWhile_eq_nil_iff.mpr (ne_separator plain)
  unfold cut
  rw [nothing]

theorem cut_append {table : String} (plain : separator ∉ table.toList) (id : String) :
    cut (table ++ ":" ++ id) = (some table, id) := by
  have chars : (table ++ ":" ++ id).toList = table.toList ++ separator :: id.toList := by
    simp [colon_toList]
  unfold cut
  rw [chars, List.takeWhile_append_of_pos (ne_separator plain),
    List.dropWhile_append_of_pos (ne_separator plain)]
  simp

theorem plain_of_cut {token table id : String} (h : cut token = (some table, id)) :
    separator ∉ table.toList := by
  unfold cut at h
  split at h
  · cases h
  · cases h
    rw [String.toList_ofList]
    intro member
    simpa using List.mem_takeWhile_imp member

theorem plain_of_cut_none {token id : String} (h : cut token = (none, id)) :
    id = token ∧ separator ∉ token.toList := by
  unfold cut at h
  split at h
  · next nothing =>
    cases h
    refine ⟨rfl, fun member => ?_⟩
    simpa using List.dropWhile_eq_nil_iff.mp nothing separator member
  · cases h

theorem eq_append_of_cut {token table id : String} (h : cut token = (some table, id)) :
    token = table ++ ":" ++ id := by
  unfold cut at h
  split at h
  · cases h
  · next c rest behind =>
    cases h
    have colon : c = separator := by
      have first := List.head?_dropWhile_not (· ≠ separator) token.toList
      rw [behind] at first
      simpa using first
    have whole := List.takeWhile_append_dropWhile (p := (· ≠ separator)) (l := token.toList)
    rw [behind, colon] at whole
    apply String.toList_inj.mp
    simp only [String.toList_append, String.toList_ofList, colon_toList, List.append_assoc,
      List.singleton_append]
    exact whole.symm

theorem nonEmpty?_eq_some {t u : String} : nonEmpty? t = some u ↔ t ≠ "" ∧ t = u := by
  unfold nonEmpty?
  split <;> simp_all

/-! ### What tokens name -/

/-- A table without colons, and no part that is empty. -/
def WellFormed (r : RecordId) : Prop :=
  (∀ table, r.table = some table → table ≠ "" ∧ separator ∉ table.toList) ∧
    ∀ id, r.id = some id → id ≠ ""

theorem wellFormed_empty : WellFormed {} := ⟨by simp, by simp⟩

theorem ofTableToken_wellFormed (token : String) : (ofTableToken token).WellFormed := by
  unfold ofTableToken
  split
  · next table id cutting =>
    refine ⟨fun t h => ?_, fun i h => ?_⟩
    · obtain ⟨some_text, rfl⟩ := nonEmpty?_eq_some.mp h
      exact ⟨some_text, plain_of_cut cutting⟩
    · obtain ⟨some_text, rfl⟩ := nonEmpty?_eq_some.mp h
      exact some_text
  · next table cutting =>
    refine ⟨fun t h => ?_, by simp⟩
    obtain ⟨some_text, rfl⟩ := nonEmpty?_eq_some.mp h
    obtain ⟨rfl, plain⟩ := plain_of_cut_none cutting
    exact ⟨some_text, plain⟩

theorem ofIdToken_wellFormed (token : String) : (ofIdToken token).WellFormed := by
  unfold ofIdToken
  rcases cutting : cut token with ⟨table, id⟩
  refine ⟨fun t h => ?_, fun i h => ?_⟩
  · obtain ⟨u, rfl, named⟩ := Option.bind_eq_some_iff.mp h
    obtain ⟨some_text, rfl⟩ := nonEmpty?_eq_some.mp named
    exact ⟨some_text, plain_of_cut cutting⟩
  · obtain ⟨some_text, rfl⟩ := nonEmpty?_eq_some.mp h
    exact some_text

/-! ### Merging -/

theorem clash?_eq_none {a b : Option String} :
    clash? a b = none ↔ ∀ x y, a = some x → b = some y → x = y := by
  cases a <;> cases b <;> grind [clash?]

theorem eq_or_iff {a b r : Option String} (agree : ∀ x y, a = some x → b = some y → x = y) :
    r = a.or b ↔ ∀ x, r = some x ↔ a = some x ∨ b = some x := by
  have named (x : String) : a.or b = some x ↔ a = some x ∨ b = some x := by
    cases a with
    | none => simp
    | some y =>
      rw [Option.some_or, or_iff_left_of_imp]
      exact fun right => congrArg some (agree y x rfl right)
  rw [Option.ext_iff]
  exact forall_congr' fun x => by rw [named]

theorem merge_eq_ok_iff {a b r : RecordId} :
    merge a b = .ok r ↔
      (∀ t u, a.table = some t → b.table = some u → t = u) ∧
        (∀ i j, a.id = some i → b.id = some j → i = j) ∧
        (∀ t, r.table = some t ↔ a.table = some t ∨ b.table = some t) ∧
        ∀ i, r.id = some i ↔ a.id = some i ∨ b.id = some i := by
  have merged : merge a b = .ok r ↔ clash? a.table b.table = none ∧ clash? a.id b.id = none ∧
      r.table = a.table.or b.table ∧ r.id = a.id.or b.id := by
    obtain ⟨table, id⟩ := r
    unfold merge
    split
    · next tables => simp [tables]
    · next tables ids => simp [tables, ids]
    · next tables ids => simp [tables, ids, eq_comm]
  rw [merged, clash?_eq_none, clash?_eq_none]
  refine and_congr_right fun tables => and_congr_right fun ids => ?_
  rw [eq_or_iff tables, eq_or_iff ids]

/-- What the left side names, the result names too. -/
theorem merge_left {a b r : RecordId} (h : merge a b = .ok r) :
    (∀ table, a.table = some table → r.table = some table) ∧
      ∀ id, a.id = some id → r.id = some id := by
  obtain ⟨-, -, tables, ids⟩ := merge_eq_ok_iff.mp h
  exact ⟨fun table named => (tables table).mpr (.inl named),
    fun id named => (ids id).mpr (.inl named)⟩

/-- What the right side names, the result names too. -/
theorem merge_right {a b r : RecordId} (h : merge a b = .ok r) :
    (∀ table, b.table = some table → r.table = some table) ∧
      ∀ id, b.id = some id → r.id = some id := by
  obtain ⟨-, -, tables, ids⟩ := merge_eq_ok_iff.mp h
  exact ⟨fun table named => (tables table).mpr (.inr named),
    fun id named => (ids id).mpr (.inr named)⟩

theorem merge_wellFormed {a b r : RecordId} (ha : a.WellFormed) (hb : b.WellFormed)
    (h : merge a b = .ok r) : r.WellFormed := by
  obtain ⟨-, -, tables, ids⟩ := merge_eq_ok_iff.mp h
  refine ⟨fun t named => ?_, fun i named => ?_⟩
  · rcases (tables t).mp named with left | right
    · exact ha.1 t left
    · exact hb.1 t right
  · rcases (ids i).mp named with left | right
    · exact ha.2 i left
    · exact hb.2 i right

theorem parse_wellFormed {table id : Option String} {r : RecordId} (h : parse table id = .ok r) :
    r.WellFormed := by
  refine merge_wellFormed ?_ ?_ h
  · cases table with
    | none => exact wellFormed_empty
    | some token => exact ofTableToken_wellFormed token
  · cases id with
    | none => exact wellFormed_empty
    | some token => exact ofIdToken_wellFormed token

/-! ### Reading a record's own token -/

theorem ofTableToken_raw {r : RecordId} (well : r.WellFormed) {table : String}
    (named : r.table = some table) : ofTableToken r.raw = r := by
  obtain ⟨some_text, plain⟩ := well.1 table named
  obtain ⟨_, id⟩ := r
  cases named
  cases id with
  | none => simp [raw, ofTableToken, cut_of_plain plain, nonEmpty?, some_text]
  | some id =>
    have some_id := well.2 id rfl
    simp [raw, ofTableToken, cut_append plain, nonEmpty?, some_text, some_id]

/-- A body can add an id to a record of a table, and change nothing else about it. -/
theorem forRecord_raw {r named : RecordId} (well : r.WellFormed) {table : String}
    (tabled : r.table = some table) {body : Record} (h : forRecord r.raw body = .ok named) :
    named.table = some table ∧ ∀ id, r.id = some id → named.id = some id := by
  unfold forRecord parse at h
  rw [Option.elim_some, ofTableToken_raw well tabled] at h
  obtain ⟨tables, ids⟩ := merge_left h
  exact ⟨tables table tabled, ids⟩

/-! ### Parts that an operation asks for -/

theorem requireTable_eq_ok {r : RecordId} {table : String} :
    r.requireTable = .ok table ↔ r.table = some table := by
  unfold requireTable
  split <;> simp_all

theorem requireTable_eq_error {r : RecordId} {cause : Refusal} :
    r.requireTable = .error cause ↔ r.table = none ∧ cause = .missingTable := by
  unfold requireTable
  split <;> simp_all [eq_comm]

theorem requireId_eq_ok {r : RecordId} {operation id : String} :
    r.requireId operation = .ok id ↔ r.id = some id := by
  unfold requireId
  split <;> simp_all

end RecordId

/-! ### Ids of bodies -/

/-- The value of an `id` field stands for the id of a record: it is the id itself, or a token with
the table of the record, or none, before the colon. -/
def Json.Names (v : Json) (r : RecordId) : Prop :=
  ∃ text id, v.idText? = some text ∧ r.id = some id ∧
    ((RecordId.separator ∉ text.toList ∧ text = id) ∨
      ∃ table, RecordId.separator ∉ table.toList ∧ text = table ++ ":" ++ id ∧
        (table = "" ∨ r.table = some table))

/-- Whether there is an id in the value of an `id` field: it is a string or a number, and not
nothing but a table. -/
def Json.givesId (v : Json) : Bool :=
  match v.idText? with
  | some text => (RecordId.cut text).2 ≠ ""
  | none => false

/-- The record that a target and a body name together has the id of the body, if that gives one. -/
theorem RecordId.names_iff_givesId {target : String} {body : Record} {r : RecordId}
    (h : forRecord target body = .ok r) {v : Json} (found : body.get? "id" = some v) :
    v.Names r ↔ v.givesId = true := by
  have well : r.WellFormed := parse_wellFormed h
  unfold Json.givesId Json.Names
  cases shown : v.idText? with
  | none => simp
  | some text =>
    have parts : forRecord target body = merge (ofTableToken target) (ofIdToken text) := by
      rw [forRecord, found, Option.bind_some, shown]
      rfl
    rw [parts] at h
    obtain ⟨tables, ids⟩ := merge_right h
    simp only [decide_eq_true_eq]
    constructor
    · rintro ⟨_, id, ⟨⟩, named, ⟨plain, rfl⟩ | ⟨table, plain, rfl, -⟩⟩
      · rw [cut_of_plain plain]
        exact well.2 _ named
      · rw [cut_append plain]
        exact well.2 _ named
    · intro some_id
      rcases cutting : cut text with ⟨table, id⟩
      rw [cutting] at some_id
      have token : ofIdToken text = ⟨table.bind nonEmpty?, some id⟩ := by
        rw [ofIdToken, cutting]
        simp [nonEmpty?, show id ≠ "" from some_id]
      rw [token] at tables ids
      refine ⟨text, id, rfl, ids id rfl, ?_⟩
      cases table with
      | none =>
        obtain ⟨rfl, plain⟩ := plain_of_cut_none cutting
        exact Or.inl ⟨plain, rfl⟩
      | some table =>
        refine Or.inr ⟨table, plain_of_cut cutting, eq_append_of_cut cutting, ?_⟩
        by_cases empty : table = ""
        · exact Or.inl empty
        · exact Or.inr (tables table (by simp [nonEmpty?, empty]))

end RecordClient
