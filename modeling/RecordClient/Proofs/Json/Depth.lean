import Mathlib.Data.List.Forall2
import RecordClient.Wire.Rpc
/-!
# The depth of JSON texts

A reader that allows for fewer lists and objects inside one another reads the same, or stops
because of the depth (`value_sameOrDeep`). So a text that can be read with some depth is either read
with another one or refused for that one reason: `Spells.read_or_deep`.
-/
namespace RecordClient.Json

namespace Reader

variable {α β : Type}

/-- The second outcome is the first one, or a stop because of the depth. -/
def SameOrDeep (o o' : Except Stop β) : Prop := o' = o ∨ ∃ rest, o' = stop .tooDeep rest

/-- Two readers of which the second one may stop because of the depth. -/
def Alike (r r' : (cs : List Char) → Result cs α) : Prop := ∀ cs, SameOrDeep (r cs) (r' cs)

namespace SameOrDeep

theorem refl (o : Except Stop β) : SameOrDeep o o := Or.inl rfl

theorem deep {o : Except Stop β} (rest : List Char) : SameOrDeep o (stop .tooDeep rest) :=
  Or.inr ⟨rest, rfl⟩

theorem bind {o o' : Except Stop α} {f f' : α → Except Stop β} (h : SameOrDeep o o')
    (each : ∀ a, SameOrDeep (f a) (f' a)) : SameOrDeep (o.bind f) (o'.bind f') := by
  rcases h with rfl | ⟨rest, rfl⟩
  · cases o' with
    | error e => exact refl _
    | ok a => exact each a
  · exact deep rest

theorem map {o o' : Except Stop α} (h : SameOrDeep o o') (f : α → β) :
    SameOrDeep (o.map f) (o'.map f) := by
  rcases h with rfl | ⟨rest, rfl⟩
  · exact refl _
  · exact deep rest

end SameOrDeep

theorem Alike.refl (r : (cs : List Char) → Result cs α) : Alike r r := fun _ => .refl _

/-! ### Lists -/

section

variable {item item' : (cs : List Char) → Result cs α}

theorem moreItems_sameOrDeep (same : Alike item item') :
    Alike (moreItems item) (moreItems item') := by
  intro cs
  rw [moreItems, moreItems]
  split
  · exact .refl _
  · exact .refl _
  · split
    · exact .refl _
    · exact .refl _
    · exact (same _).bind fun first => (moreItems_sameOrDeep same first.rest).map _
  · exact .refl _
termination_by cs => cs.length
decreasing_by exact ((first.behindGap ‹_›).pastGap ‹_›).shorter

theorem list_sameOrDeep (same : Alike item item') : Alike (list item) (list item') := by
  intro cs
  unfold list
  split
  · exact .refl _
  · exact .refl _
  · exact (same _).bind fun first => (moreItems_sameOrDeep same first.rest).map _

end

/-! ### Objects -/

section

variable {reader reader' : FieldReader α}

/-- Readers of fields that read keys in the same way. -/
structure FieldReader.Alike (reader reader' : FieldReader α) : Prop where
  escape : reader'.escape = reader.escape
  field : ∀ seen key, Reader.Alike (reader.field seen key) (reader'.field seen key)

theorem field_sameOrDeep (same : reader.Alike reader') (seen : List String) :
    Alike (field reader seen) (field reader' seen) := by
  intro cs
  unfold field
  rw [same.escape]
  exact (SameOrDeep.refl _).bind fun key => (SameOrDeep.refl _).bind fun c =>
    (same.field _ _ _).map _

theorem moreFields_sameOrDeep (same : reader.Alike reader') (seen : List String) :
    Alike (moreFields reader seen) (moreFields reader' seen) := by
  intro cs
  rw [moreFields, moreFields]
  split
  · exact .refl _
  · exact .refl _
  · split
    · exact .refl _
    · exact (field_sameOrDeep same seen _).bind fun first =>
        (moreFields_sameOrDeep same (first.value.1 :: seen) first.rest).map _
    · exact .refl _
    · exact .refl _
  · exact .refl _
termination_by cs => cs.length
decreasing_by exact ((first.pastGap ‹_›).pastGap ‹_›).shorter

theorem object_sameOrDeep (same : reader.Alike reader') :
    Alike (object reader) (object reader') := by
  intro cs
  unfold object
  split
  · exact .refl _
  · exact .refl _
  · exact (field_sameOrDeep same [] _).bind fun first =>
      (moreFields_sameOrDeep same [first.value.1] first.rest).map _
  · exact .refl _

end

/-! ### Values -/

theorem ofKind_sameOrDeep {cases cases' : Cases α}
    (list : Alike cases.list cases'.list) (object : Alike cases.object cases'.object)
    (leaves : cases' = { cases with list := cases'.list, object := cases'.object }) :
    Alike (ofKind cases) (ofKind cases') := by
  intro cs
  rw [leaves]
  unfold ofKind
  split
  all_goals first | exact .refl _ | exact (list _).map _ | exact (object _).map _

theorem valueOver_sameOrDeep {inner inner' : Inner Json} (list : Alike inner.list inner'.list)
    (object : Alike inner.object inner'.object) : Alike (valueOver inner) (valueOver inner') :=
  fun _ => (ofKind_sameOrDeep (fun cs => (list cs).map _) (fun cs => (object cs).map _) rfl _).map _

/-- A value that is read with some depth is read with a smaller one, or nests deeper. -/
theorem value_sameOrDeep {m n : Nat} (le : m ≤ n) : Alike (value n) (value m) := by
  induction m generalizing n with
  | zero =>
    cases n <;> exact valueOver_sameOrDeep (fun cs => .deep cs) fun cs => .deep cs
  | succ m ih =>
    cases n with
    | zero => cases le
    | succ n =>
      have inner := ih (Nat.le_of_succ_le_succ le)
      exact valueOver_sameOrDeep (list_sameOrDeep inner)
        (object_sameOrDeep ⟨rfl, fun _ _ => inner⟩)

/-! ### Structures -/

section

variable {item item' : (cs : List Char) → Result cs α} {fields fields' : List (Field α)}

theorem optional_sameOrDeep (same : Alike item item') : Alike (optional item) (optional item') := by
  intro cs
  refine SameOrDeep.map ?_ _
  generalize cs.dropWhile isGap = next
  dsimp only
  split
  · exact .refl _
  · exact (same _).map _

/-- Fields with the same name, whose values are read alike. -/
structure Field.Alike (f f' : Field α) : Prop where
  name : f'.name = f.name
  item : Reader.Alike f.item f'.item

theorem find?_alike (same : List.Forall₂ Field.Alike fields fields') (key : String) :
    (fields.find? (·.name = key) = none ∧ fields'.find? (·.name = key) = none) ∨
    ∃ f f', fields.find? (·.name = key) = some f ∧ fields'.find? (·.name = key) = some f' ∧
      f.Alike f' := by
  induction same with
  | nil => exact Or.inl ⟨rfl, rfl⟩
  | cons here _ ih =>
    rw [List.find?_cons, List.find?_cons, here.name]
    split
    · exact Or.inr ⟨_, _, rfl, rfl, here⟩
    · exact ih

theorem declaredField_alike (same : List.Forall₂ Field.Alike fields fields') :
    (declaredField fields).Alike (declaredField fields') where
  escape := rfl
  field seen key cs := by
    dsimp only [declaredField]
    rcases find?_alike same key with ⟨none, none'⟩ | ⟨f, f', some, some', alike⟩
    · rw [none, none']
      exact .refl _
    · rw [some, some']
      dsimp only
      split
      · exact .refl _
      · exact (alike.item cs).map _

theorem nextItem_sameOrDeep (same : Alike item item') (first : Bool) (cs : List Char) :
    SameOrDeep (nextItem first item cs) (nextItem first item' cs) := by
  unfold nextItem
  split
  · exact .refl _
  · exact .refl _
  · split
    · exact (same _).map _
    · split
      · split
        · exact .refl _
        · exact .refl _
        · exact (same _).map _
      · exact .refl _

theorem itemsFor_sameOrDeep (same : List.Forall₂ Field.Alike fields fields') (required : Nat)
    (tooShort : Nat → Misfit) (index : Nat) (cs : List Char) :
    SameOrDeep (itemsFor required tooShort index fields cs)
      (itemsFor required tooShort index fields' cs) := by
  induction same generalizing index cs with
  | nil => exact .refl _
  | cons here _ ih =>
    refine (nextItem_sameOrDeep here.item _ cs).bind fun next => ?_
    match next with
    | (none, rest) => exact .refl _
    | (some value, rest) => exact (ih (index + 1) rest.1).map _

theorem structureOf_sameOrDeep (same : List.Forall₂ Field.Alike fields fields') (expected : String)
    (required : Nat) :
    Alike (structureOf expected required fields) (structureOf expected required fields') := by
  intro cs
  unfold structureOf
  rw [same.length_eq]
  split
  · exact (object_sameOrDeep (declaredField_alike same) _).map _
  · exact (itemsFor_sameOrDeep same required _ 0 _).bind fun items => .refl _
  · exact .refl _

end

end Reader

/-! ### Texts -/

section

variable {α : Type} {reader : Nat → (cs : List Char) → Reader.Result cs α} {text : String} {a : α}

/-- A family of readers that differ in how deep a text may nest. -/
def Graded (reader : Nat → (cs : List Char) → Reader.Result cs α) : Prop :=
  ∀ {m n : Nat}, m ≤ n → Reader.Alike (reader n) (reader m)

/-- A text of something, however deep it nests. -/
def Spells (reader : Nat → (cs : List Char) → Reader.Result cs α) (text : String) (a : α) : Prop :=
  ∃ depth, readWhole (reader depth) text = .ok a

/-- A text that does not nest deeper than `depth`. -/
def NestsWithin (reader : Nat → (cs : List Char) → Reader.Result cs α) (depth : Nat)
    (text : String) : Prop :=
  ∃ a, readWhole (reader depth) text = .ok a

theorem readWhole_sameOrDeep {r r' : (cs : List Char) → Reader.Result cs α}
    (same : Reader.Alike r r') (text : String) :
    readWhole r' text = readWhole r text ∨
      ∃ place, readWhole r' text = .error (.flaw .tooDeep place) := by
  unfold readWhole readAll
  dsimp only
  rcases same text.toList with eq | ⟨rest, deep⟩
  · rw [eq]
    exact Or.inl rfl
  · rw [deep]
    exact Or.inr ⟨_, rfl⟩

theorem readWhole_of_le (graded : Graded reader) {m n : Nat} (le : m ≤ n)
    (read : readWhole (reader m) text = .ok a) : readWhole (reader n) text = .ok a := by
  rcases readWhole_sameOrDeep (graded le) text with same | ⟨place, deep⟩
  · exact same.symm.trans read
  · cases read.symm.trans deep

/-- With any limit, a text is read if it nests within it, and else refused because of its depth. -/
theorem Spells.read_or_deep (graded : Graded reader) (spelled : Spells reader text a)
    (limit : Nat) :
    (NestsWithin reader limit text ∧ readWhole (reader limit) text = .ok a) ∨
    (¬ NestsWithin reader limit text ∧
      ∃ place, readWhole (reader limit) text = .error (.flaw .tooDeep place)) := by
  obtain ⟨depth, read⟩ := spelled
  rcases Nat.le_total depth limit with enough | less
  · have own := readWhole_of_le graded enough read
    exact Or.inl ⟨⟨a, own⟩, own⟩
  · rcases readWhole_sameOrDeep (graded less) text with same | ⟨place, deep⟩
    · exact Or.inl ⟨⟨a, same.trans read⟩, same.trans read⟩
    · refine Or.inr ⟨?_, place, deep⟩
      rintro ⟨b, own⟩
      cases own.symm.trans deep

end

theorem graded_value : Graded Reader.value := Reader.value_sameOrDeep

open Reader in
theorem graded_answer : Graded Rpc.Answer.reader := by
  intro m n le
  have part : Alike (optional (value n)) (optional (value m)) :=
    optional_sameOrDeep (value_sameOrDeep le)
  have fields : List.Forall₂ Field.Alike (Rpc.Answer.fields n) (Rpc.Answer.fields m) :=
    .cons ⟨rfl, fun cs => (part cs).map _⟩ <| .cons ⟨rfl, fun cs => (part cs).map _⟩ <|
      .cons ⟨rfl, .refl _⟩ .nil
  exact fun cs => (structureOf_sameOrDeep fields _ _ cs).bind fun _ => .refl _

end RecordClient.Json
