import RecordClient.Proofs.Query.Builder
/-!
# The order of steps

Steps are about one part of a query each. `selectText_applyAll` gives the text that any run of steps
comes to, part by part, so steps about different parts can change places. The order of the rows is
the one part that is written by steps about another: `applyAll_ordering` tells the order that was
asked for from the one that expanding a column brings along.
-/
namespace RecordClient.Query

inductive Part where
  | columns
  | filters
  | grouping
  | ordering
  | limit
  | start
  | expansion
  deriving DecidableEq, Repr

namespace Step

def part : Step → Part
  | .select _ => .columns
  | .andWhere _ | .orWhere _ | .whereIn _ _ | .whereNotIn _ _ => .filters
  | .groupBy _ | .groupAll => .grouping
  | .orderBy _ _ | .orderByAscending _ => .ordering
  | .limit _ => .limit
  | .start _ => .start
  | .fetch _ => .expansion

def columns? : Step → Option (List String)
  | .select columns => some columns
  | _ => none

def grouping? : Step → Option Grouping
  | .groupBy column => some (.column column)
  | .groupAll => some .all
  | _ => none

def order? : Step → Option SortOrder
  | .orderBy column direction => some ⟨column, direction⟩
  | .orderByAscending column => some ⟨column, ascending⟩
  | _ => none

def limit? : Step → Option Nat
  | .limit count => some count
  | _ => none

def start? : Step → Option Nat
  | .start count => some count
  | _ => none

def expanded? : Step → Option String
  | .fetch column => some column
  | _ => none

end Step

/-- What the last of the steps that set something set it to. -/
def lastOf {α : Type} (f : Step → Option α) (steps : List Step) : Option α :=
  (steps.filterMap f).getLast?

def fetched (steps : List Step) : List String := steps.filterMap Step.expanded?

/-- The order that expanding columns brings along. -/
def broughtOrder (columns : List String) : Option SortOrder :=
  columns.head?.map fun _ => ⟨"id", ascending⟩

/-! ### What steps leave -/

/-- All that a step does. -/
theorem apply_eq (q : Query) (s : Step) :
    q.apply s =
      { q with
        columns := s.columns?.getD q.columns
        filters := q.filters ++ s.asked?.toList.flatMap callFilters
        grouping := s.grouping?.or q.grouping
        ordering := s.order?.or (q.ordering.or (broughtOrder s.expanded?.toList))
        limit := s.limit?.or q.limit
        start := s.start?.or q.start
        expanded := q.expanded ++ s.expanded?.toList } := by
  cases s with
  | fetch column =>
    obtain ⟨_, _, _, _, _, ordering, _, _, _⟩ := q
    cases ordering <;> simp [apply, Step.columns?, Step.asked?, Step.grouping?, Step.order?,
      Step.limit?, Step.start?, Step.expanded?, broughtOrder]
  | _ =>
    simp [apply, Step.columns?, Step.asked?, callFilters, Step.grouping?, Step.order?, Step.limit?,
      Step.start?, Step.expanded?, broughtOrder]

theorem lastOf_cons {α : Type} (f : Step → Option α) (s : Step) (rest : List Step) :
    lastOf f (s :: rest) = (lastOf f rest).or (f s) := by
  unfold lastOf
  rw [List.filterMap_cons]
  cases f s with
  | none => exact (Option.or_none).symm
  | some a =>
    rw [List.getLast?_cons]
    cases (rest.filterMap f).getLast? <;> rfl

theorem fetched_cons (s : Step) (rest : List Step) :
    fetched (s :: rest) = s.expanded?.toList ++ fetched rest := by
  rw [fetched, List.filterMap_cons]
  cases s.expanded? <;> rfl

theorem broughtOrder_append (a b : List String) :
    broughtOrder (a ++ b) = (broughtOrder a).or (broughtOrder b) := by
  cases a <;> rfl

/-- All that steps do. An order that was asked for stays, wherever columns are expanded. -/
theorem applyAll_eq (q : Query) (steps : List Step) :
    q.applyAll steps =
      { q with
        columns := (lastOf Step.columns? steps).getD q.columns
        filters := q.filters ++ (calls steps).flatMap callFilters
        grouping := (lastOf Step.grouping? steps).or q.grouping
        ordering := (lastOf Step.order? steps).or (q.ordering.or (broughtOrder (fetched steps)))
        limit := (lastOf Step.limit? steps).or q.limit
        start := (lastOf Step.start? steps).or q.start
        expanded := q.expanded ++ fetched steps } := by
  induction steps generalizing q with
  | nil => simp [applyAll, lastOf, fetched, calls, broughtOrder]
  | cons s rest ih =>
    have later : q.applyAll (s :: rest) = (q.apply s).applyAll rest := rfl
    -- An order that comes with an expansion stands behind one before the steps, so it does not
    -- matter which step brought it.
    rw [later, ih, apply_eq]
    simp only [lastOf_cons, fetched_cons, calls_cons, broughtOrder_append, Option.getD_or,
      Option.or_assoc, List.flatMap_append, List.append_assoc]

/-! ### The text -/

def groupClause : Grouping → String
  | .all => "GROUP ALL"
  | .column name => "GROUP BY " ++ name

def orderClause (o : SortOrder) : String := "ORDER BY " ++ o.column ++ " " ++ o.direction

/-- The clauses of a query, each of them at most once, in the order of its text. -/
def clauses (q : Query) : List String :=
  let condition := Filter.compile q.filters
  ("SELECT " ++ if q.columns = [] then "*" else ", ".intercalate q.columns) ::
    ("FROM " ++ q.table) ::
    [if condition = "" then none else some ("WHERE " ++ condition),
      q.grouping.map groupClause,
      q.ordering.map orderClause,
      q.limit.map fun count => "LIMIT " ++ count.repr,
      q.start.map fun count => "START " ++ count.repr,
      if q.expanded = [] then none else some ("FETCH " ++ ", ".intercalate q.expanded)].filterMap id

def spaced (clause : Option String) : String := clause.elim "" (" " ++ ·)

theorem intercalate_filterMap (first : String) (clauses : List (Option String)) :
    " ".intercalate (first :: clauses.filterMap id) =
      first ++ String.join (clauses.map spaced) := by
  induction clauses generalizing first with
  | nil => simp
  | cons clause rest ih =>
    cases clause with
    | none => simpa [spaced] using ih first
    | some t =>
      have kept : (some t :: rest).filterMap id = t :: rest.filterMap id := rfl
      rw [kept, String.intercalate_cons_cons, ih t]
      simp [spaced, String.append_assoc]

theorem selectText_eq_clauses (q : Query) : q.selectText = " ".intercalate q.clauses := by
  have condition : q.whereText = spaced (if Filter.compile q.filters = "" then none
      else some ("WHERE " ++ Filter.compile q.filters)) := by
    unfold whereText
    dsimp only
    split <;> simp [spaced, ← String.append_assoc]
  have group : q.groupText = spaced (q.grouping.map groupClause) := by
    unfold groupText
    split <;> simp_all [spaced, groupClause, ← String.append_assoc]
  have order : q.orderText = spaced (q.ordering.map orderClause) := by
    unfold orderText
    split <;> simp_all [spaced, orderClause, ← String.append_assoc]
  have limit : q.limitText = spaced (q.limit.map fun count => "LIMIT " ++ count.repr) := by
    unfold limitText
    split <;> simp_all [spaced, ← String.append_assoc]
  have start : q.startText = spaced (q.start.map fun count => "START " ++ count.repr) := by
    unfold startText
    split <;> simp_all [spaced, ← String.append_assoc]
  have fetch : q.fetchText = spaced (if q.expanded = [] then none
      else some ("FETCH " ++ ", ".intercalate q.expanded)) := by
    unfold fetchText
    split <;> simp [spaced, ← String.append_assoc]
  have table : " FROM " ++ q.table = " " ++ ("FROM " ++ q.table) := by
    rw [← String.append_assoc]
    rfl
  unfold selectText columnsText
  rw [clauses, String.intercalate_cons_cons, intercalate_filterMap]
  simp only [condition, group, order, limit, start, fetch, table, List.map_cons, List.map_nil,
    String.join_cons, String.join_nil, String.append_empty, String.append_assoc]

/-! ### Changing places -/

/-- The query of a table that steps ask for, part by part. -/
def asksFor (table : String) (bound : Bool) (steps : List Step) : Query where
  table := table
  bound := bound
  columns := (lastOf Step.columns? steps).getD []
  filters := (calls steps).flatMap callFilters
  grouping := lastOf Step.grouping? steps
  ordering := (lastOf Step.order? steps).or (broughtOrder (fetched steps))
  limit := lastOf Step.limit? steps
  start := lastOf Step.start? steps
  expanded := fetched steps

theorem applyAll_eq_asksFor (table : String) (bound : Bool) (steps : List Step) :
    ({ table, bound } : Query).applyAll steps = asksFor table bound steps := by
  rw [applyAll_eq]
  simp only [List.nil_append, Option.or_none, Option.none_or]
  rfl

/-- For each part, the same steps about it in the same order. -/
def SameByPart (steps others : List Step) : Prop :=
  ∀ p : Part, steps.filter (·.part = p) = others.filter (·.part = p)

theorem SameByPart.filterMap_eq {steps others : List Step} (same : SameByPart steps others)
    {α : Type} {f : Step → Option α} {p : Part} (about : ∀ s, s.part ≠ p → f s = none) :
    steps.filterMap f = others.filterMap f := by
  have seen (steps : List Step) :
      steps.filterMap f = (steps.filter (·.part = p)).filterMap f := by
    rw [List.filterMap_filter]
    refine congrArg (List.filterMap · steps) (funext fun s => ?_)
    by_cases own : s.part = p
    · simp [own]
    · simp [own, about s own]
  rw [seen steps, seen others, same p]

theorem asksFor_eq_of_sameByPart {steps others : List Step} (same : SameByPart steps others)
    (table : String) (bound : Bool) : asksFor table bound others = asksFor table bound steps := by
  have columns : steps.filterMap Step.columns? = others.filterMap Step.columns? :=
    same.filterMap_eq (p := .columns) (by intro s; cases s <;> simp [Step.part, Step.columns?])
  have filters : calls steps = calls others :=
    same.filterMap_eq (p := .filters) (by intro s; cases s <;> simp [Step.part, Step.asked?])
  have grouping : steps.filterMap Step.grouping? = others.filterMap Step.grouping? :=
    same.filterMap_eq (p := .grouping) (by intro s; cases s <;> simp [Step.part, Step.grouping?])
  have ordering : steps.filterMap Step.order? = others.filterMap Step.order? :=
    same.filterMap_eq (p := .ordering) (by intro s; cases s <;> simp [Step.part, Step.order?])
  have limit : steps.filterMap Step.limit? = others.filterMap Step.limit? :=
    same.filterMap_eq (p := .limit) (by intro s; cases s <;> simp [Step.part, Step.limit?])
  have start : steps.filterMap Step.start? = others.filterMap Step.start? :=
    same.filterMap_eq (p := .start) (by intro s; cases s <;> simp [Step.part, Step.start?])
  have expanded : fetched steps = fetched others :=
    same.filterMap_eq (p := .expansion) (by intro s; cases s <;> simp [Step.part, Step.expanded?])
  simp only [asksFor, lastOf, columns, filters, grouping, ordering, limit, start, expanded]

theorem sameByPart_move {before middle after : List Step} {s : Step}
    (apart : ∀ m ∈ middle, m.part ≠ s.part) :
    SameByPart (before ++ s :: (middle ++ after)) (before ++ (middle ++ s :: after)) := by
  intro p
  simp only [List.filter_append, List.filter_cons]
  by_cases own : s.part = p
  · have none : middle.filter (·.part = p) = [] := by
      rw [List.filter_eq_nil_iff]
      intro m member
      simpa [← own] using apart m member
    simp [own, none]
  · simp [own]

/-- Steps come to one query, whatever their order among each other: the columns, the grouping, the
order, the limit and the start that were asked for last, the filters and the expanded columns in
the order of their steps, and the order by id only where columns are expanded and no other was
asked for. Its text has a clause for each of these that is given, in an order of its own. So a step
can be moved over steps about other parts, such as an expansion over an order. -/
theorem selectText_of_steps (table : String) (bound : Bool) (steps : List Step) :
    let built (steps : List Step) := ({ table, bound } : Query).applyAll steps
    built steps = asksFor table bound steps ∧
    (built steps).selectText = " ".intercalate (asksFor table bound steps).clauses ∧
    (∀ others, SameByPart steps others → built others = built steps) ∧
    (∀ before s middle after, steps = before ++ s :: (middle ++ after) →
      (∀ m ∈ middle, m.part ≠ s.part) →
      (built (before ++ (middle ++ s :: after))).selectText = (built steps).selectText) := by
  intro built
  have settled : ∀ steps, built steps = asksFor table bound steps := applyAll_eq_asksFor table bound
  have swapped : ∀ others, SameByPart steps others → built others = built steps := by
    intro others same
    rw [settled, settled, asksFor_eq_of_sameByPart same]
  refine ⟨settled steps, ?_, swapped, ?_⟩
  · rw [settled, selectText_eq_clauses]
  · rintro before s middle after rfl apart
    rw [swapped _ (sameByPart_move apart)]

/-- Two expansions around an order, and a limit that is set twice. -/
def sampleRun : List Step :=
  [.limit 5, .fetch "owner", .andWhere (Filter.equal "a" (Json.ofNat 1)), .orderBy "age" "desc",
    .fetch "team", .limit 10, .groupAll]

theorem sampleRun_text :
    (({ table := "t" } : Query).applyAll sampleRun).selectText =
      "SELECT * FROM t WHERE a = 1 GROUP ALL ORDER BY age desc LIMIT 10 FETCH owner, team" ∧
    (({ table := "t" } : Query).applyAll
        [.limit 5, .andWhere (Filter.equal "a" (Json.ofNat 1)), .orderBy "age" "desc",
          .fetch "owner", .fetch "team", .limit 10, .groupAll]).selectText =
      (({ table := "t" } : Query).applyAll sampleRun).selectText := by
  obtain ⟨-, text, -, moved⟩ := selectText_of_steps "t" false sampleRun
  refine ⟨text.trans (by decide), ?_⟩
  exact moved [.limit 5] (.fetch "owner")
    [.andWhere (Filter.equal "a" (Json.ofNat 1)), .orderBy "age" "desc"]
    [.fetch "team", .limit 10, .groupAll] rfl (by simp [Step.part])

end RecordClient.Query
