import RecordClient.Query.Builder
import RecordClient.Proofs.Query.Condition
/-!
# Joins of a query

Each step that adds a clause asks for a join in front of it. A marker outlives a clause that says
nothing, so the next clause takes it over: `whereText_joins` shows that this is the only case in
which a query is not joined as it was asked.
-/
open RecordClient.Filter

namespace RecordClient.Query

def Step.asked? : Step → Option (Join × Filter)
  | .andWhere filter => some (.and, filter)
  | .orWhere filter => some (.or, filter)
  | .whereIn column values => some (.and, .contains values false column)
  | .whereNotIn column values => some (.and, .contains values true column)
  | .select _ | .groupBy _ | .groupAll | .orderBy _ _ | .orderByAscending _ | .limit _ | .start _
  | .fetch _ => none

def calls (steps : List Step) : List (Join × Filter) := steps.filterMap Step.asked?

def callFilters : Join × Filter → List Filter
  | (.and, f) => [f]
  | (.or, f) => [.either, f]

theorem calls_cons (s : Step) (rest : List Step) :
    calls (s :: rest) = s.asked?.toList ++ calls rest := by
  rw [calls, List.filterMap_cons]
  cases s.asked? <;> rfl

theorem apply_filters (q : Query) (s : Step) :
    (q.apply s).filters = q.filters ++ s.asked?.toList.flatMap callFilters := by
  cases s <;> simp [apply, Step.asked?, callFilters]

theorem applyAll_filters (q : Query) (steps : List Step) :
    (q.applyAll steps).filters = q.filters ++ (calls steps).flatMap callFilters := by
  induction steps generalizing q with
  | nil => exact (List.append_nil _).symm
  | cons s rest ih =>
    have later : (q.applyAll (s :: rest)).filters = ((q.apply s).applyAll rest).filters := rfl
    rw [later, ih, apply_filters, calls_cons, List.flatMap_append, List.append_assoc]

/-- The clauses of calls, each joined as its own call asks. -/
def asked : List (Join × Filter) → List (Join × String)
  | [] => []
  | (k, f) :: rest =>
    match clause? f with
    | some c => (k, c) :: asked rest
    | none => asked rest

/-- The clauses of calls, each joined as any call since the clause before it asks. -/
def given : Join → List (Join × Filter) → List (Join × String)
  | _, [] => []
  | j, (k, f) :: rest =>
    match clause? f with
    | some c => (j.merge k, c) :: given .and rest
    | none => given (j.merge k) rest

theorem joinAfter_of_ne {f : Filter} (unmarked : f ≠ .either) (j : Join) : joinAfter f j = j := by
  cases f with
  | either => exact absurd rfl unmarked
  | _ => rfl

theorem joins_calls {called : List (Join × Filter)} (unmarked : ∀ call ∈ called, call.2 ≠ .either)
    (j : Join) : joins j (called.flatMap callFilters) = given j called := by
  induction called generalizing j with
  | nil => rfl
  | cons call rest ih =>
    obtain ⟨k, f⟩ := call
    have own : f ≠ .either := unmarked (k, f) List.mem_cons_self
    have later := ih fun call member => unmarked call (List.mem_cons_of_mem _ member)
    -- The marker of the call, if it has one, goes into the join that waits.
    have first : joins j (callFilters (k, f) ++ rest.flatMap callFilters) =
        joins (j.merge k) (f :: rest.flatMap callFilters) := by
      cases k <;> cases j <;> rfl
    rw [List.flatMap_cons, first, joins, given]
    cases clause? f with
    | none =>
      rw [joinAfter_of_ne own]
      exact later _
    | some c => exact congrArg ((j.merge k, c) :: ·) (later .and)

theorem given_snd (j : Join) (called : List (Join × Filter)) :
    (given j called).map Prod.snd = (asked called).map Prod.snd := by
  induction called generalizing j with
  | nil => rfl
  | cons call rest ih =>
    obtain ⟨k, f⟩ := call
    rw [given, asked]
    cases clause? f with
    | none => exact ih _
    | some c => exact congrArg (c :: ·) (ih .and)

/-! ### Calls whose join is not their own -/

/-- The first clause is to be joined by `AND`, but a call for `OR` stands before it. -/
def Overruled (j : Join) (called : List (Join × Filter)) : Prop :=
  ∃ between next after, called = between ++ next :: after ∧
    (∀ call ∈ between, hasLeaf call.2 = false) ∧ (j = .or ∨ ∃ call ∈ between, call.1 = .or) ∧
    hasLeaf next.2 = true ∧ next.1 = .and

/-- Behind some clause a call for `OR` adds none, and the next clause is to be joined by `AND`. -/
def StrayOr (called : List (Join × Filter)) : Prop :=
  ∃ before first after, called = before ++ first :: after ∧ hasLeaf first.2 = true ∧
    Overruled .and after

theorem overruled_cons_of_leaf {call : Join × Filter} (leaf : hasLeaf call.2 = true) (j : Join)
    (rest : List (Join × Filter)) :
    Overruled j (call :: rest) ↔ j = .or ∧ call.1 = .and := by
  constructor
  · rintro ⟨between, next, after, split, leafless, marker, -, conjoined⟩
    cases between with
    | nil =>
      cases split
      rcases marker with marker | ⟨c, member, -⟩
      · exact ⟨marker, conjoined⟩
      · cases member
    | cons c between =>
      cases split
      have none := leafless call List.mem_cons_self
      rw [leaf] at none
      cases none
  · rintro ⟨marker, conjoined⟩
    exact ⟨[], call, rest, rfl, by simp, Or.inl marker, leaf, conjoined⟩

theorem merge_eq_or (j k : Join) : j.merge k = .or ↔ j = .or ∨ k = .or := by
  cases j <;> simp [Join.merge]

theorem overruled_cons_of_no_leaf {call : Join × Filter} (none : hasLeaf call.2 = false) (j : Join)
    (rest : List (Join × Filter)) :
    Overruled j (call :: rest) ↔ Overruled (j.merge call.1) rest := by
  constructor
  · rintro ⟨between, next, after, split, leafless, marker, leaf, conjoined⟩
    cases between with
    | nil =>
      cases split
      rw [none] at leaf
      cases leaf
    | cons c between =>
      cases split
      refine ⟨between, next, after, rfl, fun c member => leafless c (List.mem_cons_of_mem _ member),
        ?_, leaf, conjoined⟩
      simpa [merge_eq_or, or_assoc] using marker
  · rintro ⟨between, next, after, rfl, leafless, marker, leaf, conjoined⟩
    refine ⟨call :: between, next, after, rfl, ?_, ?_, leaf, conjoined⟩
    · intro c member
      rcases List.mem_cons.mp member with rfl | member
      · exact none
      · exact leafless c member
    · simpa [merge_eq_or, or_assoc] using marker

theorem strayOr_cons (call : Join × Filter) (rest : List (Join × Filter)) :
    StrayOr (call :: rest) ↔
      (hasLeaf call.2 = true ∧ Overruled .and rest) ∨ StrayOr rest := by
  constructor
  · rintro ⟨before, first, after, split, leaf, stray⟩
    cases before with
    | nil =>
      cases split
      exact Or.inl ⟨leaf, stray⟩
    | cons c before =>
      cases split
      exact Or.inr ⟨before, first, after, rfl, leaf, stray⟩
  · rintro (⟨leaf, stray⟩ | ⟨before, first, after, rfl, leaf, stray⟩)
    · exact ⟨[], call, rest, rfl, leaf, stray⟩
    · exact ⟨call :: before, first, after, rfl, leaf, stray⟩

theorem given_eq_asked_iff (j : Join) (called : List (Join × Filter)) :
    given j called = asked called ↔ ¬ Overruled j called ∧ ¬ StrayOr called := by
  induction called generalizing j with
  | nil => simp [given, asked, Overruled, StrayOr]
  | cons call rest ih =>
    obtain ⟨k, f⟩ := call
    have leaf := isSome_clause? f
    rw [given, asked, strayOr_cons]
    cases h : clause? f with
    | none =>
      rw [h] at leaf
      have later := ih (j.merge k)
      rw [overruled_cons_of_no_leaf leaf.symm]
      simpa [← leaf] using later
    | some c =>
      rw [h] at leaf
      have later := ih .and
      have own : j.merge k = k ↔ ¬ (j = .or ∧ k = .and) := by
        cases j <;> cases k <;> simp [Join.merge]
      rw [overruled_cons_of_leaf leaf.symm]
      simp only [List.cons.injEq, Prod.mk.injEq, and_true, own, later, ← leaf, Option.isSome_some,
        true_and, not_or]

theorem given_tail_eq_asked_tail_iff (j : Join) (called : List (Join × Filter)) :
    (given j called).tail = (asked called).tail ↔ ¬ StrayOr called := by
  induction called generalizing j with
  | nil => simp [given, asked, StrayOr]
  | cons call rest ih =>
    obtain ⟨k, f⟩ := call
    have leaf := isSome_clause? f
    rw [given, asked, strayOr_cons]
    cases h : clause? f with
    | none =>
      rw [h] at leaf
      simpa [← leaf] using ih (j.merge k)
    | some c =>
      rw [h] at leaf
      simpa [← leaf] using given_eq_asked_iff .and rest

/-! ### Joins in the text -/

theorem joinedText_inj {a b : List (Join × String)} (same : a.map Prod.snd = b.map Prod.snd)
    (text : joinedText a = joinedText b) : a = b := by
  induction a generalizing b with
  | nil => exact (List.map_eq_nil_iff.mp same.symm).symm
  | cons p rest ih =>
    obtain ⟨j, c⟩ := p
    match b with
    | [] => cases same
    | (k, d) :: others =>
      obtain ⟨rfl, later⟩ := List.cons.inj same
      -- The joins differ in their second character already.
      have first : j = k := by
        have chars := congrArg String.toList text
        cases j <;> cases k <;> simp [joinedText, Join.text] at chars ⊢
      subst first
      have behind : joinedText rest = joinedText others := by
        have chars := congrArg String.toList text
        simp only [joinedText, String.toList_append, List.append_cancel_left_eq] at chars
        exact String.toList_inj.mp chars
      rw [ih later behind]

theorem render_eq_iff {a b : List (Join × String)} (same : a.map Prod.snd = b.map Prod.snd) :
    render a = render b ↔ a.tail = b.tail := by
  match a, b with
  | [], [] => simp
  | [], _ :: _ => cases same
  | _ :: _, [] => cases same
  | (_, c) :: rest, (_, d) :: others =>
    obtain ⟨first, later⟩ := List.cons.inj same
    have first : c = d := first
    subst first
    rw [render, render, List.tail_cons, List.tail_cons]
    constructor
    · intro text
      have chars := congrArg String.toList text
      rw [String.toList_append, String.toList_append] at chars
      exact joinedText_inj later (String.toList_inj.mp (List.append_cancel_left chars))
    · intro rest
      rw [rest]

theorem settle_tail (w : Join) (a : List (Join × String)) :
    (settle w a).tail = settle w a.tail := by
  cases w with
  | or => rfl
  | and =>
    match a with
    | [] => rfl
    | [_] => rfl
    | _ :: _ :: _ => rfl

theorem settle_fst (w : Join) (a : List (Join × String)) :
    (settle w a).map Prod.fst = a.map Prod.fst := by
  cases w with
  | or => rfl
  | and =>
    induction a with
    | nil => rfl
    | cons p rest ih =>
      cases rest with
      | nil => rfl
      | cons q rest => exact congrArg (p.1 :: ·) ih

theorem settle_snd (w : Join) {a b : List (Join × String)}
    (same : a.map Prod.snd = b.map Prod.snd) :
    (settle w a).map Prod.snd = (settle w b).map Prod.snd := by
  cases w with
  | or => exact same
  | and =>
    induction a generalizing b with
    | nil =>
      rw [List.map_eq_nil_iff.mp same.symm]
    | cons p rest ih =>
      match b with
      | [] => cases same
      | q :: others =>
        obtain ⟨first, later⟩ := List.cons.inj same
        match rest, others with
        | [], [] => exact congrArg (fun c => [withoutEnding Join.or.text c]) first
        | [], _ :: _ => cases later
        | _ :: _, [] => cases later
        | _ :: _, _ :: _ =>
          have cut := ih later
          simp only [settle, cutLast, List.map_cons, first] at cut ⊢
          rw [cut]

theorem settle_inj {w : Join} {a b : List (Join × String)}
    (same : a.map Prod.snd = b.map Prod.snd) (text : settle w a = settle w b) : a = b := by
  have fst : a.map Prod.fst = b.map Prod.fst := by
    rw [← settle_fst w a, text, settle_fst]
  rw [List.zip_of_prod fst same, ← List.zip_of_prod rfl rfl]

theorem render_settle_eq_iff (w : Join) {a b : List (Join × String)}
    (same : a.map Prod.snd = b.map Prod.snd) :
    render (settle w a) = render (settle w b) ↔ a.tail = b.tail := by
  rw [render_eq_iff (settle_snd w same), settle_tail, settle_tail]
  constructor
  · intro text
    refine settle_inj ?_ text
    rw [List.map_tail, List.map_tail, same]
  · intro rest
    rw [rest]

def clausesText (w : Join) (clauses : List (Join × String)) : String :=
  if clauses = [] then "" else " WHERE " ++ render (settle w clauses)

theorem clausesText_eq_iff (w : Join) {a b : List (Join × String)}
    (same : a.map Prod.snd = b.map Prod.snd) :
    clausesText w a = clausesText w b ↔ a.tail = b.tail := by
  match a, b with
  | [], [] => simp
  | [], _ :: _ => cases same
  | _ :: _, [] => cases same
  | p :: rest, q :: others =>
    rw [← render_settle_eq_iff w same, clausesText, clausesText, if_neg (by simp), if_neg (by simp)]
    constructor
    · intro text
      have chars := congrArg String.toList text
      rw [String.toList_append, String.toList_append] at chars
      exact String.toList_inj.mp (List.append_cancel_left chars)
    · intro text
      rw [text]

theorem whereText_eq_clausesText (q : Query) :
    q.whereText = clausesText (waiting .and q.filters) (joins .and q.filters) := by
  have empty := compile_eq_empty_iff q.filters
  rw [whereText, clausesText, ← compile_eq_render]
  split
  · next nothing => rw [if_pos (empty.mp nothing)]
  · next text => rw [if_neg (mt empty.mpr text)]

/-- The clauses of a query stand in the order of the calls that add them. In front of each but the
first is the join of its own call, unless it is to be joined by `AND` and a call for `OR` that added
nothing stands between it and the clause before. -/
theorem whereText_joins (q : Query) (fresh : q.filters = []) (steps : List Step)
    (unmarked : ∀ call ∈ calls steps, call.2 ≠ .either) :
    (q.applyAll steps).whereText =
      clausesText (waiting .and (q.applyAll steps).filters) (given .and (calls steps)) ∧
    (given .and (calls steps)).map Prod.snd = (asked (calls steps)).map Prod.snd ∧
    ((q.applyAll steps).whereText =
      clausesText (waiting .and (q.applyAll steps).filters) (asked (calls steps)) ↔
        ¬ StrayOr (calls steps)) := by
  have clauses : joins .and (q.applyAll steps).filters = given .and (calls steps) := by
    rw [applyAll_filters, fresh, List.nil_append, joins_calls unmarked]
  have text := whereText_eq_clausesText (q.applyAll steps)
  rw [clauses] at text
  refine ⟨text, given_snd _ _, ?_⟩
  rw [text, clausesText_eq_iff _ (given_snd _ _)]
  exact given_tail_eq_asked_tail_iff .and (calls steps)

def sampleSteps : List Step :=
  [.andWhere (equal "a" (Json.ofNat 1)), .andWhere (.group []), .orWhere (equal "b" (Json.ofNat 2)),
    .limit 1, .whereIn "tags" [.string "x"]]

theorem sampleSteps_joined :
    (({ table := "t" } : Query).applyAll sampleSteps).whereText =
      " WHERE a = 1 OR b = 2 AND ['x'] CONTAINS tags" ∧ ¬ StrayOr (calls sampleSteps) := by
  have all := whereText_joins { table := "t" } rfl sampleSteps (by
    simp [calls, sampleSteps, Step.asked?, equal])
  exact ⟨all.1.trans (by decide), all.2.2.mp (by decide)⟩

/-- Behind a call for `OR` with an empty group, a call for `AND` is joined by `OR`. -/
theorem or_outlives_empty_group :
    let steps : List Step := [.andWhere (equal "a" (Json.ofNat 1)), .orWhere (.group []),
      .andWhere (equal "b" (Json.ofNat 2))]
    (∀ call ∈ calls steps, call.2 ≠ .either) ∧
      (({ table := "t" } : Query).applyAll steps).selectText =
        "SELECT * FROM t WHERE a = 1 OR b = 2" ∧
      (asked (calls steps)).map Prod.fst = [.and, .and] := by
  refine ⟨?_, by decide, by decide⟩
  simp [calls, Step.asked?, equal]

end RecordClient.Query
