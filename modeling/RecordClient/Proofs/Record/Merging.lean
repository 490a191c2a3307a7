import RecordClient.Proofs.Record.Id
/-!
# Merging tokens

What a table token and an id token say, in terms of their texts (`NamesTable`, `NamesId`), and what
becomes of both together: `parse_merges_names`.
-/
namespace RecordClient.RecordId

/-! ### What a token says -/

/-- Where a token stands. One without a colon is a table in the one place and an id in the other. -/
inductive Place where
  | table
  | id
  deriving DecidableEq, Repr

/-- The token has a colon, with these texts before and behind its first one. -/
def CutsInto (token table id : String) : Prop :=
  separator ∉ table.toList ∧ token = table ++ ":" ++ id

namespace Place

def NamesTable (p : Place) (token : Option String) (table : String) : Prop :=
  table ≠ "" ∧ ∃ text, token = some text ∧
    ((∃ id, CutsInto text table id) ∨ (p = .table ∧ separator ∉ text.toList ∧ text = table))

def NamesId (p : Place) (token : Option String) (id : String) : Prop :=
  id ≠ "" ∧ ∃ text, token = some text ∧
    ((∃ table, CutsInto text table id) ∨ (p = .id ∧ separator ∉ text.toList ∧ text = id))

def read (p : Place) (token : Option String) : RecordId :=
  match p with
  | table => token.elim {} ofTableToken
  | id => token.elim {} ofIdToken

end Place

theorem cutsInto_iff {token table id : String} :
    CutsInto token table id ↔ cut token = (some table, id) := by
  constructor
  · rintro ⟨plain, rfl⟩
    exact cut_append plain id
  · exact fun cutting => ⟨plain_of_cut cutting, eq_append_of_cut cutting⟩

theorem plain_iff {token : String} : separator ∉ token.toList ↔ cut token = (none, token) :=
  ⟨cut_of_plain, fun cutting => (plain_of_cut_none cutting).2⟩

theorem cut_cases (token : String) :
    cut token = (none, token) ∨ ∃ table id, cut token = (some table, id) := by
  rcases cutting : cut token with ⟨_ | table, id⟩
  · exact Or.inl (by rw [(plain_of_cut_none cutting).1])
  · exact Or.inr ⟨table, id, rfl⟩

namespace Place

variable {p : Place} {token : Option String}

theorem read_table_iff {table : String} :
    (p.read token).table = some table ↔ p.NamesTable token table := by
  unfold NamesTable
  simp only [cutsInto_iff, plain_iff]
  cases token with
  | none => cases p <;> simp [read]
  | some text =>
    rcases cut_cases text with cutting | ⟨before, behind, cutting⟩ <;> cases p <;>
      simp only [read, Option.elim_some, ofTableToken, ofIdToken, cutting] <;>
      grind [nonEmpty?]

theorem read_id_iff {id : String} : (p.read token).id = some id ↔ p.NamesId token id := by
  unfold NamesId
  simp only [cutsInto_iff, plain_iff]
  cases token with
  | none => cases p <;> simp [read]
  | some text =>
    rcases cut_cases text with cutting | ⟨before, behind, cutting⟩ <;> cases p <;>
      simp only [read, Option.elim_some, ofTableToken, ofIdToken, cutting] <;>
      grind [nonEmpty?]

end Place

/-! ### Refused merges -/

theorem clash?_eq_some {a b : Option String} {x y : String} :
    clash? a b = some (x, y) ↔ a = some x ∧ b = some y ∧ x ≠ y := by
  cases a <;> cases b <;> grind [clash?]

theorem merge_eq_error_iff {a b : RecordId} {e : Refusal} :
    merge a b = .error e ↔
      (∃ t u, a.table = some t ∧ b.table = some u ∧ t ≠ u ∧ e = .tableMismatch t u) ∨
        (∀ t u, a.table = some t → b.table = some u → t = u) ∧
          ∃ i j, a.id = some i ∧ b.id = some j ∧ i ≠ j ∧ e = .idMismatch i j := by
  unfold merge
  split
  · next t u tables =>
    obtain ⟨left, right, differ⟩ := clash?_eq_some.mp tables
    grind
  · next i j tables ids =>
    obtain ⟨left, right, differ⟩ := clash?_eq_some.mp ids
    have agree := clash?_eq_none.mp tables
    grind
  · next tables ids =>
    have tables := clash?_eq_none.mp tables
    have ids := clash?_eq_none.mp ids
    grind

/-! ### Merging once more -/

/-- Merging the same part once more changes nothing. -/
theorem merge_again {a b r : RecordId} (h : merge a b = .ok r) : merge r b = .ok r := by
  obtain ⟨tables, ids⟩ := merge_right h
  rw [merge_eq_ok_iff]
  refine ⟨fun t u left right => ?_, fun i j left right => ?_, fun t => ?_, fun i => ?_⟩
  · exact Option.some.inj (left.symm.trans (tables u right))
  · exact Option.some.inj (left.symm.trans (ids j right))
  · exact (or_iff_left_of_imp (tables t)).symm
  · exact (or_iff_left_of_imp (ids i)).symm

theorem merge_empty (r : RecordId) : merge r {} = .ok r := by
  obtain ⟨_ | table, _ | id⟩ := r <;> rfl

theorem parse_alone (token : String) : parse (some token) none = .ok (ofTableToken token) :=
  merge_empty _

theorem parse_raw {r : RecordId} (well : r.WellFormed) {table : String}
    (named : r.table = some table) : parse (some r.raw) none = .ok r := by
  unfold parse
  rw [Option.elim_some, ofTableToken_raw well named]
  exact merge_empty r

theorem forRecord_raw_again {target : String} {body : Record} {r : RecordId}
    (accepted : forRecord target body = .ok r) {table : String} (named : r.table = some table) :
    forRecord r.raw body = .ok r := by
  have well : r.WellFormed := parse_wellFormed accepted
  unfold forRecord parse at accepted ⊢
  rw [Option.elim_some, ofTableToken_raw well named]
  exact merge_again accepted

/-! ### Both tokens -/

/-- Tokens are refused exactly when they name different tables or else different ids, with both
names. Otherwise the record has the parts that either of them names and no others, none of which
is empty or has a colon in its table. -/
theorem parse_merges_names (table id : Option String) :
    (∀ e, parse table id = .error e ↔
      (∃ t u, Place.table.NamesTable table t ∧ Place.id.NamesTable id u ∧ t ≠ u ∧
        e = .tableMismatch t u) ∨
      (∀ t u, Place.table.NamesTable table t → Place.id.NamesTable id u → t = u) ∧
        ∃ i j, Place.table.NamesId table i ∧ Place.id.NamesId id j ∧ i ≠ j ∧
          e = .idMismatch i j) ∧
    (∀ r, parse table id = .ok r ↔
      (∀ t u, Place.table.NamesTable table t → Place.id.NamesTable id u → t = u) ∧
      (∀ i j, Place.table.NamesId table i → Place.id.NamesId id j → i = j) ∧
      (∀ t, r.table = some t ↔ Place.table.NamesTable table t ∨ Place.id.NamesTable id t) ∧
      ∀ i, r.id = some i ↔ Place.table.NamesId table i ∨ Place.id.NamesId id i) ∧
    ∀ r, parse table id = .ok r → r.WellFormed := by
  have read : parse table id = merge (Place.table.read table) (Place.id.read id) := rfl
  simp only [← Place.read_table_iff, ← Place.read_id_iff]
  refine ⟨fun e => ?_, fun r => ?_, fun r accepted => parse_wellFormed accepted⟩
  · rw [read]
    exact merge_eq_error_iff
  · rw [read]
    exact merge_eq_ok_iff

/-- Before a first colon that has nothing ahead of it there is no table, and a second colon belongs
to the id. -/
example : parse (some ":1:2") (some "t:1:2") = .ok ⟨some "t", some "1:2"⟩ := by decide

end RecordClient.RecordId
