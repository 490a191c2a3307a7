import RecordClient.Proofs.Query.Condition
/-!
# The normal form of filters

What a condition says nothing about: groups without a leaf, and markers that stand first, last or
before another one. `normal` takes them away at every level. `conditionText_normal` shows that the
text stays the same.
-/
namespace RecordClient.Filter

/-! ### Normal forms -/

/-- Leaves out the markers that no filter follows before the next marker. -/
def settleMarkers : List Filter → List Filter
  | [] => []
  | f :: rest =>
    if isEither f && (settleMarkers rest).head?.all isEither then settleMarkers rest
    else f :: settleMarkers rest

/-- Leaves out leading, trailing and repeated markers. -/
def trimMarkers (fs : List Filter) : List Filter := (settleMarkers fs).dropWhile isEither

mutual

def prune : Filter → List Filter
  | .group filters => if anyLeaf filters then [.group (trimMarkers (pruneAll filters))] else []
  | f => [f]

/-- Leaves out groups without a leaf, and gives the others their normal form. -/
def pruneAll : List Filter → List Filter
  | [] => []
  | f :: rest => prune f ++ pruneAll rest

end

def normal (fs : List Filter) : List Filter := trimMarkers (pruneAll fs)

/-- A filter with the normal form of what it groups. -/
def bare : Filter → Filter
  | .group filters => .group (normal filters)
  | f => f

theorem prune_of_leaf {f : Filter} (h : hasLeaf f = true) : prune f = [bare f] := by
  cases f with
  | compare column operator value => rw [prune, bare]; all_goals nofun
  | contains values negated column => rw [prune, bare]; all_goals nofun
  | group filters =>
    rw [hasLeaf] at h
    rw [prune, if_pos h]
    rfl
  | either => cases h

theorem prune_of_not_leaf {f : Filter} (h : hasLeaf f = false) :
    prune f = if isEither f then [.either] else [] := by
  cases f with
  | compare column operator value => cases h
  | contains values negated column => cases h
  | group filters =>
    rw [hasLeaf] at h
    rw [prune, h]
    rfl
  | either => rfl

theorem isEither_bare (f : Filter) : isEither (bare f) = isEither f := by
  cases f <;> rfl

theorem isEither_of_leaf {f : Filter} (h : hasLeaf f = true) : isEither f = false := by
  cases f with
  | either => cases h
  | _ => rfl

/-! ### Links -/

/-- The filters with a leaf, each with the join in front of it; one waits for the first filter. -/
def links : Join → List Filter → List (Join × Filter)
  | _, [] => []
  | j, f :: rest => if hasLeaf f then (j, f) :: links .and rest else links (joinAfter f j) rest

def mapFilters {α : Type} (t : Filter → α) (ls : List (Join × Filter)) : List (Join × α) :=
  ls.map (Prod.map id t)

/-- The filters of links, with a marker for each `OR`. -/
def chained : List (Join × Filter) → List Filter
  | [] => []
  | (.and, f) :: rest => f :: chained rest
  | (.or, f) :: rest => .either :: f :: chained rest

/-- The filters of links from the first one on, which has no join in front. -/
def chain : List (Join × Filter) → List Filter
  | [] => []
  | (_, f) :: rest => f :: chained rest

theorem mem_links {j : Join} {fs : List Filter} {p : Join × Filter} (h : p ∈ links j fs) :
    p.2 ∈ fs ∧ hasLeaf p.2 = true := by
  induction fs generalizing j with
  | nil => cases h
  | cons f rest ih =>
    rw [links] at h
    split at h
    · next leaf =>
      rcases List.mem_cons.mp h with rfl | h
      · exact ⟨List.mem_cons_self, leaf⟩
      · exact ⟨List.mem_cons_of_mem _ (ih h).1, (ih h).2⟩
    · exact ⟨List.mem_cons_of_mem _ (ih h).1, (ih h).2⟩

theorem links_eq_nil_iff (fs : List Filter) (j : Join) : links j fs = [] ↔ anyLeaf fs = false := by
  induction fs generalizing j with
  | nil => simp [links, anyLeaf]
  | cons f rest ih =>
    rw [links, anyLeaf]
    cases hasLeaf f with
    | true => simp
    | false => simpa using ih (joinAfter f j)

/-! ### Normal forms from links -/

def withOr : List (Join × Filter) → List (Join × Filter)
  | [] => []
  | (_, f) :: rest => (.or, f) :: rest

theorem links_or (fs : List Filter) (j : Join) : links .or fs = withOr (links j fs) := by
  induction fs generalizing j with
  | nil => rfl
  | cons f rest ih =>
    have marked : joinAfter f .or = .or := by
      cases f <;> rfl
    rw [links, links, marked]
    split
    · rfl
    · exact ih (joinAfter f j)

def Unmarked (ls : List (Join × Filter)) : Prop := ∀ p ∈ ls, isEither p.2 = false

theorem unmarked_links (j : Join) (fs : List Filter) : Unmarked (mapFilters bare (links j fs)) := by
  intro p member
  obtain ⟨q, inside, rfl⟩ := List.mem_map.mp member
  exact (isEither_bare q.2).trans (isEither_of_leaf (mem_links inside).2)

theorem chained_withOr {ls : List (Join × Filter)} (unmarked : Unmarked ls) :
    chained (withOr ls) =
      if (chained ls).head?.all isEither then chained ls else .either :: chained ls := by
  match ls with
  | [] => rfl
  | (.or, f) :: rest => rfl
  | (.and, f) :: rest =>
    have filter : isEither f = false := unmarked (.and, f) List.mem_cons_self
    simp [withOr, chained, filter]

theorem dropWhile_chained {ls : List (Join × Filter)} (unmarked : Unmarked ls) :
    (chained ls).dropWhile isEither = chain ls := by
  match ls with
  | [] => rfl
  | (j, f) :: rest =>
    have filter : isEither f = false := unmarked (j, f) List.mem_cons_self
    have marker : isEither .either = true := rfl
    cases j <;> simp [chained, chain, filter, marker]

theorem settleMarkers_pruneAll (fs : List Filter) :
    settleMarkers (pruneAll fs) = chained (mapFilters bare (links .and fs)) := by
  induction fs with
  | nil => rfl
  | cons f rest ih =>
    rw [pruneAll, links]
    cases leaf : hasLeaf f with
    | true =>
      have filter : isEither (bare f) = false := (isEither_bare f).trans (isEither_of_leaf leaf)
      rw [prune_of_leaf leaf, List.singleton_append, settleMarkers, filter, ih]
      rfl
    | false =>
      rw [prune_of_not_leaf leaf]
      cases f with
      | either =>
        have later : mapFilters bare (links .or rest) =
            withOr (mapFilters bare (links .and rest)) := by
          rw [links_or rest .and]
          cases links .and rest <;> rfl
        show settleMarkers (.either :: pruneAll rest) = chained (mapFilters bare (links .or rest))
        rw [settleMarkers, ih, later, chained_withOr (unmarked_links .and rest)]
        rfl
      | _ => exact ih

/-- A normal form is the filters with a leaf in order, and a marker for each `OR` between them. -/
theorem normal_eq_chain (fs : List Filter) :
    normal fs = chain (mapFilters bare (links .and fs)) := by
  rw [normal, trimMarkers, settleMarkers_pruneAll, dropWhile_chained (unmarked_links .and fs)]

/-! ### Texts of normal forms -/

theorem plainColumns_cons_iff (f : Filter) (rest : List Filter) :
    PlainColumns (allMemberColumns (f :: rest)) ↔
      PlainColumns (memberColumns f) ∧ PlainColumns (allMemberColumns rest) :=
  List.forall_mem_append

/-- The text of links from the first one on, in front of which there is no join. -/
def linkedText (ls : List (Join × Filter)) : String := render (mapFilters clauseText ls)

theorem joins_eq_links {fs : List Filter} (plain : PlainColumns (allMemberColumns fs)) (j : Join) :
    joins j fs = mapFilters clauseText (links j fs) := by
  induction fs generalizing j with
  | nil => rfl
  | cons f rest ih =>
    obtain ⟨first, others⟩ := (plainColumns_cons_iff f rest).mp plain
    rw [joins, links]
    cases leaf : hasLeaf f with
    | true =>
      obtain ⟨c, clause⟩ := Option.isSome_iff_exists.mp ((isSome_clause? f).trans leaf)
      rw [clause, clause?_eq_clauseText f first c clause, ih others]
      rfl
    | false =>
      rw [clause?_of_not_hasLeaf leaf]
      exact ih others (joinAfter f j)

theorem conditionText_eq_linkedText {fs : List Filter}
    (plain : PlainColumns (allMemberColumns fs)) :
    conditionText fs = linkedText (links .and fs) := by
  rw [linkedText, ← joins_eq_links plain, (render_joins fs .and plain).1]

def Leaves (ls : List (Join × Filter)) : Prop := ∀ p ∈ ls, hasLeaf p.2 = true

theorem conditionText_chained {ls : List (Join × Filter)} (leaves : Leaves ls) :
    conditionText (chain ls) = linkedText ls ∧
      (if anyLeaf (chained ls) then
        (joinBefore (chained ls)).text ++ conditionText (chained ls) else "") =
          joinedText (mapFilters clauseText ls) := by
  induction ls with
  | nil => exact ⟨rfl, rfl⟩
  | cons p rest ih =>
    obtain ⟨j, f⟩ := p
    have leaf : hasLeaf f = true := leaves (j, f) List.mem_cons_self
    have behind := (ih fun p member => leaves p (List.mem_cons_of_mem _ member)).2
    have whole : conditionText (chain ((j, f) :: rest)) = linkedText ((j, f) :: rest) := by
      rw [chain, conditionText, if_pos leaf, behind]
      rfl
    refine ⟨whole, ?_⟩
    have marker : hasLeaf .either = false := rfl
    have text : conditionText (chained ((j, f) :: rest)) = linkedText ((j, f) :: rest) := by
      rw [← whole]
      cases j with
      | and => rfl
      | or => rw [chained, conditionText, marker]; rfl
    have join : joinBefore (chained ((j, f) :: rest)) = j := by
      cases j <;> simp [chained, joinBefore, leaf, marker, isEither]
    have some_leaf : anyLeaf (chained ((j, f) :: rest)) = true := by
      cases j <;> simp [chained, anyLeaf, leaf]
    rw [if_pos some_leaf, join, text]
    exact String.append_assoc.symm

theorem anyLeaf_append (fs gs : List Filter) : anyLeaf (fs ++ gs) = (anyLeaf fs || anyLeaf gs) := by
  induction fs with
  | nil => rfl
  | cons f rest ih => rw [List.cons_append, anyLeaf, anyLeaf, ih, Bool.or_assoc]

theorem anyLeaf_cons_marker {f : Filter} (h : isEither f = true) (fs : List Filter) :
    anyLeaf (f :: fs) = anyLeaf fs := by
  cases f with
  | either => rfl
  | _ => cases h

theorem anyLeaf_trimMarkers (fs : List Filter) : anyLeaf (trimMarkers fs) = anyLeaf fs := by
  have settled : anyLeaf (settleMarkers fs) = anyLeaf fs := by
    induction fs with
    | nil => rfl
    | cons f rest ih =>
      rw [settleMarkers]
      split
      · next repeated =>
        rw [ih, anyLeaf_cons_marker (Bool.and_eq_true_iff.mp repeated).1]
      · rw [anyLeaf, anyLeaf, ih]
  rw [trimMarkers, ← settled]
  induction settleMarkers fs with
  | nil => rfl
  | cons f rest ih =>
    rw [List.dropWhile_cons]
    split
    · next marker => rw [ih, anyLeaf_cons_marker marker]
    · rfl

mutual

theorem anyLeaf_prune : ∀ f : Filter, anyLeaf (prune f) = hasLeaf f
  | .compare _ _ _ => rfl
  | .contains _ _ _ => rfl
  | .group filters => by
    have inside := (anyLeaf_trimMarkers (pruneAll filters)).trans (anyLeaf_pruneAll filters)
    rw [prune, hasLeaf]
    cases found : anyLeaf filters with
    | true => simp [anyLeaf, hasLeaf, inside, found]
    | false => rfl
  | .either => rfl

theorem anyLeaf_pruneAll : ∀ fs : List Filter, anyLeaf (pruneAll fs) = anyLeaf fs
  | [] => rfl
  | f :: rest => by
    rw [pruneAll, anyLeaf_append, anyLeaf_prune f, anyLeaf_pruneAll rest, anyLeaf]

end

theorem leaves_links (j : Join) (fs : List Filter) : Leaves (mapFilters bare (links j fs)) := by
  intro p member
  obtain ⟨q, inside, rfl⟩ := List.mem_map.mp member
  have leaf := (mem_links inside).2
  have kept := anyLeaf_prune q.2
  rw [prune_of_leaf leaf, leaf] at kept
  simpa [anyLeaf] using kept

def bareTexts (j : Join) (fs : List Filter) : List (Join × String) :=
  mapFilters clauseText (mapFilters bare (links j fs))

theorem conditionText_of_bareTexts {fs : List Filter} (plain : PlainColumns (allMemberColumns fs))
    (same : bareTexts .and fs = mapFilters clauseText (links .and fs)) :
    conditionText (normal fs) = conditionText fs :=
  calc conditionText (normal fs)
    _ = linkedText (mapFilters bare (links .and fs)) := by
      rw [normal_eq_chain, (conditionText_chained (leaves_links .and fs)).1]
    _ = linkedText (links .and fs) := congrArg render same
    _ = conditionText fs := (conditionText_eq_linkedText plain).symm

mutual

theorem clauseText_bare : ∀ f : Filter, PlainColumns (memberColumns f) →
    clauseText (bare f) = clauseText f
  | .compare _ _ _, _ => rfl
  | .contains _ _ _, _ => rfl
  | .group filters, plain => by
    have inside := conditionText_of_bareTexts plain (bareTexts_eq filters .and plain)
    rw [bare, clauseText, clauseText, inside]
  | .either, _ => rfl

theorem bareTexts_eq : ∀ (fs : List Filter) (j : Join), PlainColumns (allMemberColumns fs) →
    bareTexts j fs = mapFilters clauseText (links j fs)
  | [], _, _ => rfl
  | f :: rest, j, plain => by
    obtain ⟨first, others⟩ := (plainColumns_cons_iff f rest).mp plain
    rw [bareTexts, links]
    split
    · show (j, clauseText (bare f)) :: bareTexts .and rest =
        (j, clauseText f) :: mapFilters clauseText (links .and rest)
      rw [clauseText_bare f first, bareTexts_eq rest .and others]
    · exact bareTexts_eq rest (joinAfter f j) others

end

/-- What a normal form leaves out is not in the text. -/
theorem conditionText_normal {fs : List Filter} (plain : PlainColumns (allMemberColumns fs)) :
    conditionText (normal fs) = conditionText fs :=
  conditionText_of_bareTexts plain (bareTexts_eq fs .and plain)

end RecordClient.Filter
