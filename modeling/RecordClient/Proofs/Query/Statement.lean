import RecordClient.Proofs.Query.Condition
import RecordClient.Proofs.Query.Skeleton
import RecordClient.Query.Builder
/-!
# The strings of statements

A statement takes names, operators and directions over as they are, and its values as literals.
`skeleton_eq_of_outline_eq` shows that what the strings among the values hold does not show in the
skeleton of the statement.
-/
namespace RecordClient

/-! ### Filters -/

mutual

def Filter.outline : Filter → Filter
  | .compare column operator value => .compare column operator value.outline
  | .contains values negated column => .contains (Json.outlineItems values) negated column
  | .group filters => .group (outlineAll filters)
  | .either => .either

def Filter.outlineAll : List Filter → List Filter
  | [] => []
  | f :: rest => f.outline :: outlineAll rest

end

mutual

/-- The texts of filters that are taken over as they are. -/
def Filter.rawParts : Filter → List String
  | .compare column operator _ => [column, operator]
  | .contains _ _ column => [column]
  | .group filters => allRawParts filters
  | .either => []

def Filter.allRawParts : List Filter → List String
  | [] => []
  | f :: rest => f.rawParts ++ allRawParts rest

end

namespace Skeleton

open RecordClient.Filter

/-! ### Clauses -/

theorem membership_eq (values : List Json) (negated : Bool) (column : String) :
    membership values negated column =
      Literal.ofJson (.array values) ++ (if negated then " CONTAINSNOT" else " CONTAINS") ++
        (" " ++ column) := by
  rw [← String.toList_inj]
  cases negated <;> simp [membership]

/-- Clauses that are alike, also where the text of a condition cuts them. -/
def AlikeClauses (c d : String) : Prop :=
  Alike c d ∧ Alike (withoutEnding Join.or.text c) (withoutEnding Join.or.text d)

theorem AlikeClauses.of_closed {c d : String} (hc : Closed c) (hd : Closed d) (alike : Alike c d) :
    AlikeClauses c d := by
  refine ⟨alike, ?_⟩
  rw [withoutEnding_of_not hc.not_ends, withoutEnding_of_not hd.not_ends]
  exact alike

theorem alikeClauses_comparison {column operator : String} (hcolumn : QuoteFree column)
    (hoperator : QuoteFree operator) (v : Json) :
    AlikeClauses (comparison column operator v) (comparison column operator v.outline) := by
  have blank : QuoteFree " " := by decide
  have raw := ((hcolumn.append blank).append hoperator).append blank
  exact .of_closed ((closed_ofJson v).append _) ((closed_ofJson v.outline).append _)
    (raw.alike.append (alike_ofJson v))

theorem alikeClauses_membership {column : String} (hcolumn : QuoteFree column)
    (values : List Json) (negated : Bool) :
    AlikeClauses (membership values negated column)
      (membership (Json.outlineItems values) negated column) := by
  have blank : QuoteFree " " := by decide
  have word : QuoteFree (if negated then " CONTAINSNOT" else " CONTAINS") := by
    cases negated <;> decide
  have literal : Alike (Literal.ofJson (.array values))
      (Literal.ofJson (.array (Json.outlineItems values))) := alike_ofJson (.array values)
  have front := literal.append word.alike
  constructor
  · rw [membership_eq, membership_eq]
    exact front.append (blank.append hcolumn).alike
  · by_cases ends : Ends Join.or.text (" " ++ column)
    · -- The column reads as a join at its end, and what is left of it is as free of quotes.
      obtain ⟨left, split⟩ := eq_append_of_ends ends
      have free : QuoteFree left := by
        have whole := blank.append hcolumn
        rw [split] at whole
        exact (quoteFree_append_iff.mp whole).1
      rw [membership_eq, membership_eq, split, ← String.append_assoc, ← String.append_assoc,
        withoutEnding_append, withoutEnding_append]
      exact front.append free.alike
    · rw [withoutEnding_of_not (mt ends_membership ends),
        withoutEnding_of_not (mt ends_membership ends), membership_eq, membership_eq]
      exact front.append (blank.append hcolumn).alike

/-! ### Conditions -/

theorem quoteFree_join (j : Join) : QuoteFree j.text := by
  cases j <;> decide

def SameJoins (R : String → String → Prop) : List (Join × String) → List (Join × String) → Prop :=
  List.Forall₂ fun p q => p.1 = q.1 ∧ R p.2 q.2

theorem alike_joinedText {a b : List (Join × String)} (h : SameJoins Alike a b) :
    Alike (joinedText a) (joinedText b) := by
  induction h with
  | nil => exact QuoteFree.alike (by decide)
  | @cons p q rest others first later ih =>
    obtain ⟨j, c⟩ := p
    obtain ⟨_, d⟩ := q
    obtain ⟨rfl, clause⟩ := first
    exact ((quoteFree_join j).alike.append clause).append ih

theorem alike_render {a b : List (Join × String)} (h : SameJoins Alike a b) :
    Alike (render a) (render b) := by
  cases h with
  | nil => exact QuoteFree.alike (by decide)
  | cons first later => exact first.2.append (alike_joinedText later)

theorem sameJoins_settle (w : Join) {a b : List (Join × String)} (h : SameJoins AlikeClauses a b) :
    SameJoins Alike (settle w a) (settle w b) := by
  have whole : SameJoins Alike a b := h.imp fun _ _ same => ⟨same.1, same.2.1⟩
  cases w with
  | or => exact whole
  | and =>
    -- Only the last clause is cut, so only there the second half of `AlikeClauses` is used.
    induction h with
    | nil => exact .nil
    | @cons p q rest others first later ih =>
      cases whole with
      | cons firstAlike laterAlike =>
        cases later with
        | nil => exact .cons ⟨first.1, first.2.2⟩ .nil
        | cons second rest => exact .cons firstAlike (ih laterAlike)

theorem alike_compile {fs gs : List Filter}
    (clauses : SameJoins AlikeClauses (joins .and fs) (joins .and gs))
    (ends : waiting .and fs = waiting .and gs) :
    Alike (compile fs) (compile gs) ∧ (compile fs = "" ↔ compile gs = "") := by
  constructor
  · rw [compile_eq_render, compile_eq_render, ← ends]
    exact alike_render (sameJoins_settle _ clauses)
  · rw [compile_eq_empty_iff, compile_eq_empty_iff]
    generalize joins .and fs = a at clauses ⊢
    generalize joins .and gs = b at clauses ⊢
    cases clauses <;> simp

mutual

theorem clause?_outline : ∀ f : Filter, (∀ p ∈ f.rawParts, QuoteFree p) →
    Option.Rel AlikeClauses (clause? f) (clause? f.outline)
  | .compare column operator value, plain =>
    .some (alikeClauses_comparison (plain column (by simp [rawParts]))
      (plain operator (by simp [rawParts])) value)
  | .contains values negated column, plain =>
    .some (alikeClauses_membership (plain column (by simp [rawParts])) values negated)
  | .group filters, plain => by
    have inner := joins_outline filters .and plain
    obtain ⟨alike, empty⟩ := alike_compile inner.1 inner.2
    rw [Filter.outline, clause?, clause?]
    by_cases nothing : compile filters = ""
    · rw [if_pos nothing, if_pos (empty.mp nothing)]
      exact .none
    · rw [if_neg nothing, if_neg (mt empty.mpr nothing)]
      have opening : QuoteFree "(" := by decide
      have closing : QuoteFree ")" := by decide
      have last : Closed ")" := ⟨[], ')', by decide, by decide⟩
      exact .some (.of_closed (last.append _) (last.append _)
        ((opening.alike.append alike).append closing.alike))
  | .either, _ => .none

theorem joins_outline : ∀ (fs : List Filter) (j : Join), (∀ p ∈ allRawParts fs, QuoteFree p) →
    SameJoins AlikeClauses (joins j fs) (joins j (outlineAll fs)) ∧
      waiting j fs = waiting j (outlineAll fs)
  | [], _, _ => ⟨.nil, rfl⟩
  | f :: rest, j, plain => by
    have first := clause?_outline f fun p member => plain p (List.mem_append_left _ member)
    have later (k : Join) := joins_outline rest k fun p member =>
      plain p (List.mem_append_right _ member)
    have mark : joinAfter f.outline j = joinAfter f j := by
      cases f <;> rfl
    rw [outlineAll, joins, joins, waiting, waiting, mark]
    generalize clause? f = c at first ⊢
    generalize clause? f.outline = d at first ⊢
    cases first with
    | none => exact later _
    | some alike => exact ⟨.cons ⟨rfl, alike⟩ (later .and).1, (later .and).2⟩

end

end Skeleton

/-! ### Statements -/

/-- What a query or a link is sent as. -/
inductive Statement where
  | select (q : Query)
  | update (q : Query) (data : Record)
  | delete (q : Query)
  | relate (l : Link)
  deriving Repr

def Record.outline (r : Record) : Record := ⟨Json.outlineFields r.fields⟩

def Query.outline (q : Query) : Query := { q with filters := Filter.outlineAll q.filters }

def RecordId.parts (r : RecordId) : List String := r.table.toList ++ r.id.toList

def Record.keys (r : Record) : List String := r.fields.map Prod.fst

def Grouping.parts : Grouping → List String
  | .all => []
  | .column name => [name]

namespace Statement

def text : Statement → String
  | .select q => q.selectText
  | .update q data => q.updateText data
  | .delete q => q.deleteText
  | .relate l => l.text

/-- The statement with all its strings emptied. -/
def outline : Statement → Statement
  | .select q => .select q.outline
  | .update q data => .update q.outline data.outline
  | .delete q => .delete q.outline
  | .relate l => .relate { l with data := l.data.outline }

/-- The texts that are taken over as they are. -/
def rawParts : Statement → List String
  | .select q =>
    q.table :: q.columns ++ Filter.allRawParts q.filters ++ (q.grouping.elim [] Grouping.parts)
      ++ (q.ordering.elim [] fun o => [o.column, o.direction]) ++ q.expanded
  | .update q data => q.table :: data.keys ++ Filter.allRawParts q.filters
  | .delete q => q.table :: Filter.allRawParts q.filters
  | .relate l => l.source.parts ++ l.verb :: l.target.parts ++ l.data.keys

end Statement

namespace Skeleton

theorem quoteFree_intercalate {separator : String} (plain : QuoteFree separator)
    {texts : List String} (free : ∀ t ∈ texts, QuoteFree t) :
    QuoteFree (separator.intercalate texts) := by
  induction texts with
  | nil => exact (by decide : QuoteFree "")
  | cons t rest ih =>
    have first := free t List.mem_cons_self
    cases rest with
    | nil => simpa using first
    | cons u rest =>
      rw [String.intercalate_cons_cons]
      exact (first.append plain).append (ih fun u member => free u (List.mem_cons_of_mem _ member))

theorem quoteFree_renderedId {id : String} (free : QuoteFree id) :
    QuoteFree (RecordId.renderedId id) := by
  unfold RecordId.renderedId
  split
  · exact free
  · have opening : QuoteFree "⟨" := by decide
    have closing : QuoteFree "⟩" := by decide
    refine (opening.append fun c member => ?_).append closing
    rw [String.toList_ofList] at member
    obtain ⟨d, inside, near⟩ := List.mem_flatMap.mp member
    unfold RecordId.bracketChar at near
    split at near
    · rcases List.mem_pair.mp near with rfl | rfl <;> decide
    · rw [List.mem_singleton.mp near]
      exact free d inside

theorem quoteFree_rendered {r : RecordId} (free : ∀ p ∈ r.parts, QuoteFree p) :
    QuoteFree r.rendered := by
  obtain ⟨table, id⟩ := r
  have colon : QuoteFree ":" := by decide
  have named (t : String) (h : table = some t) : QuoteFree t := free t (by simp [RecordId.parts, h])
  have single (i : String) (h : id = some i) : QuoteFree (RecordId.renderedId i) :=
    quoteFree_renderedId (free i (by simp [RecordId.parts, h]))
  cases table with
  | none =>
    cases id with
    | none => exact (by decide : QuoteFree "")
    | some i => exact single i rfl
  | some t =>
    cases id with
    | none => exact named t rfl
    | some i => exact ((named t rfl).append colon).append (single i rfl)

theorem alike_whereText {q : Query} (free : ∀ p ∈ Filter.allRawParts q.filters, QuoteFree p) :
    Alike q.whereText q.outline.whereText := by
  have filters := joins_outline q.filters .and free
  obtain ⟨alike, empty⟩ := alike_compile filters.1 filters.2
  rw [Query.whereText, Query.whereText, Query.outline]
  by_cases nothing : Filter.compile q.filters = ""
  · rw [if_pos nothing, if_pos (empty.mp nothing)]
    exact QuoteFree.alike (by decide)
  · rw [if_neg nothing, if_neg (mt empty.mpr nothing)]
    have word : QuoteFree " WHERE " := by decide
    exact word.alike.append alike

theorem alike_assignments {fields : List (String × Json)}
    (free : ∀ key ∈ fields.map Prod.fst, QuoteFree key) :
    List.Forall₂ Alike (fields.map Literal.assignment)
      ((Json.outlineFields fields).map Literal.assignment) := by
  induction fields with
  | nil => exact .nil
  | cons field rest ih =>
    obtain ⟨key, v⟩ := field
    have own : QuoteFree key := free key List.mem_cons_self
    have sign : QuoteFree " = " := by decide
    exact .cons ((own.append sign).alike.append (alike_ofJson v))
      (ih fun k member => free k (List.mem_cons_of_mem _ member))

theorem alike_setText {data : Record} (free : ∀ key ∈ data.keys, QuoteFree key) :
    Alike (Query.setText data) (Query.setText data.outline) := by
  have comma : QuoteFree ", " := by decide
  have pairs := Alike.intercalate comma (alike_assignments free)
  have word : QuoteFree " SET " := by decide
  obtain ⟨fields⟩ := data
  cases fields with
  | nil => exact QuoteFree.alike (by decide)
  | cons field rest => exact word.alike.append pairs

/-- What a `SELECT` says behind its condition. -/
def tailText (q : Query) : String :=
  q.groupText ++ q.orderText ++ q.limitText ++ q.startText ++ q.fetchText

theorem selectText_eq (q : Query) :
    q.selectText =
      "SELECT " ++ q.columnsText ++ " FROM " ++ q.table ++ q.whereText ++ tailText q := by
  delta Query.selectText tailText
  simp only [String.append_assoc]

theorem quoteFree_columnsText {q : Query} (free : ∀ c ∈ q.columns, QuoteFree c) :
    QuoteFree q.columnsText := by
  unfold Query.columnsText
  split
  · decide
  · exact quoteFree_intercalate (by decide) free

theorem quoteFree_repr (n : Nat) : QuoteFree n.repr :=
  quoteFree_of_numerals (Literal.numerals_repr n)

theorem quoteFree_tailText {q : Query}
    (grouping : ∀ g, q.grouping = some g → ∀ p ∈ g.parts, QuoteFree p)
    (ordering : ∀ o, q.ordering = some o → QuoteFree o.column ∧ QuoteFree o.direction)
    (expanded : ∀ c ∈ q.expanded, QuoteFree c) : QuoteFree (tailText q) := by
  have nothing : QuoteFree "" := by decide
  have group : QuoteFree q.groupText := by
    unfold Query.groupText
    split
    · exact nothing
    · decide
    · next name h =>
      have word : QuoteFree " GROUP BY " := by decide
      exact word.append (grouping _ h name (by simp [Grouping.parts]))
  have order : QuoteFree q.orderText := by
    unfold Query.orderText
    split
    · exact nothing
    · next column direction h =>
      have word : QuoteFree " ORDER BY " := by decide
      have blank : QuoteFree " " := by decide
      exact ((word.append (ordering _ h).1).append blank).append (ordering _ h).2
  have limit : QuoteFree q.limitText := by
    unfold Query.limitText
    split
    · exact nothing
    · have word : QuoteFree " LIMIT " := by decide
      exact word.append (quoteFree_repr _)
  have start : QuoteFree q.startText := by
    unfold Query.startText
    split
    · exact nothing
    · have word : QuoteFree " START " := by decide
      exact word.append (quoteFree_repr _)
  have fetch : QuoteFree q.fetchText := by
    unfold Query.fetchText
    split
    · exact nothing
    · have word : QuoteFree " FETCH " := by decide
      exact word.append (quoteFree_intercalate (by decide) expanded)
  exact (((group.append order).append limit).append start).append fetch

/-- A statement is alike to the one with all its strings emptied. -/
theorem alike_outline (s : Statement) (free : ∀ p ∈ s.rawParts, QuoteFree p) :
    Alike s.text s.outline.text := by
  cases s with
  | select q =>
    simp only [Statement.rawParts, List.cons_append, List.forall_mem_cons, List.forall_mem_append]
      at free
    obtain ⟨table, ⟨⟨⟨columns, filters⟩, grouping⟩, ordering⟩, expanded⟩ := free
    have word : QuoteFree "SELECT " := by decide
    have origin : QuoteFree " FROM " := by decide
    have front := ((word.append (quoteFree_columnsText columns)).append origin).append table
    have back : QuoteFree (tailText q) := by
      refine quoteFree_tailText ?_ ?_ expanded
      · intro g h p member
        rw [h] at grouping
        exact grouping p member
      · intro o h
        rw [h] at ordering
        exact ⟨ordering _ (by simp), ordering _ (by simp)⟩
    show Alike q.selectText q.outline.selectText
    rw [selectText_eq, selectText_eq]
    exact (front.alike.append (alike_whereText filters)).append back.alike
  | update q data =>
    simp only [Statement.rawParts, List.cons_append, List.forall_mem_cons, List.forall_mem_append]
      at free
    obtain ⟨table, keys, filters⟩ := free
    have word : QuoteFree "UPDATE " := by decide
    exact ((word.append table).alike.append (alike_setText keys)).append (alike_whereText filters)
  | delete q =>
    simp only [Statement.rawParts, List.forall_mem_cons] at free
    obtain ⟨table, filters⟩ := free
    have word : QuoteFree "DELETE " := by decide
    exact (word.append table).alike.append (alike_whereText filters)
  | relate l =>
    simp only [Statement.rawParts, List.forall_mem_cons, List.forall_mem_append] at free
    obtain ⟨⟨source, verb, target⟩, keys⟩ := free
    have word : QuoteFree "RELATE " := by decide
    have arrow : QuoteFree "->" := by decide
    have front := ((word.append (quoteFree_rendered source)).append arrow).append verb
    have whole := (front.append arrow).append (quoteFree_rendered target)
    exact whole.alike.append (alike_setText keys)

end Skeleton

/-! ### Statements with one outline -/

mutual

theorem Filter.rawParts_outline : ∀ f : Filter, f.outline.rawParts = f.rawParts
  | .compare _ _ _ => rfl
  | .contains _ _ _ => rfl
  | .group filters => allRawParts_outlineAll filters
  | .either => rfl

theorem Filter.allRawParts_outlineAll : ∀ fs : List Filter,
    allRawParts (outlineAll fs) = allRawParts fs
  | [] => rfl
  | f :: rest => by
    rw [outlineAll, allRawParts, allRawParts, rawParts_outline f, allRawParts_outlineAll rest]

end

theorem Record.keys_outline (r : Record) : r.outline.keys = r.keys := by
  obtain ⟨fields⟩ := r
  show (Json.outlineFields fields).map Prod.fst = fields.map Prod.fst
  induction fields with
  | nil => rfl
  | cons field rest ih => exact congrArg (field.1 :: ·) ih

namespace Statement

open Skeleton

theorem rawParts_outline (s : Statement) : s.outline.rawParts = s.rawParts := by
  cases s <;>
    simp only [outline, rawParts, Query.outline, Filter.allRawParts_outlineAll, Record.keys_outline]

/-- No text of a caller opens or ends a string of a statement, and two statements that differ in
nothing but their strings have one skeleton, provided that the texts they take over as they are
hold no quotes. -/
theorem skeleton_eq_of_outline_eq {s t : Statement} (free : ∀ p ∈ s.rawParts, QuoteFree p)
    (same : s.outline = t.outline) :
    EndsOutside s.text ∧ EndsOutside t.text ∧ ofText s.text = ofText t.text := by
  have others : ∀ p ∈ t.rawParts, QuoteFree p := by
    rw [← rawParts_outline t, ← same, rawParts_outline s]
    exact free
  have left := alike_outline s free
  have right := alike_outline t others
  rw [← same] at right
  exact ⟨left.left, right.left, left.same.trans right.same.symm⟩

/-- An update whose strings are all the same. -/
def sampleUpdate (t : String) : Statement :=
  .update
    { table := "person"
      filters := [.equal "name" (.string t), .either,
        .group [.contains [.object [("it's", .string t)]] true "tags"]] }
    ⟨[("nick", .string t), ("seen", .array [.null, .string t])]⟩

theorem sampleUpdate_skeleton :
    EndsOutside (sampleUpdate "x' OR 'a' = 'a").text ∧
      EndsOutside (sampleUpdate "\\").text ∧
      ofText (sampleUpdate "x' OR 'a' = 'a").text = ofText (sampleUpdate "\\").text :=
  skeleton_eq_of_outline_eq (s := sampleUpdate "x' OR 'a' = 'a") (t := sampleUpdate "\\")
    (by decide) rfl

end Statement

end RecordClient
