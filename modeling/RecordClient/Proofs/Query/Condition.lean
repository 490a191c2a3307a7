import RecordClient.Query.Condition
import RecordClient.Proofs.Query.Literal
/-!
# The text of conditions

The text is written by changing its own end. `compile_eq_render` shows that it is the clauses in
order with the joins that wait before them, and `compile_eq_conditionText` that a join is `OR`
where a marker stands between the clauses.
-/
namespace RecordClient.Filter

/-! ### Ends of texts -/

def Ends (ending t : String) : Prop := ending.toList <:+ t.toList

instance (ending t : String) : Decidable (Ends ending t) :=
  inferInstanceAs (Decidable (ending.toList <:+ t.toList))

theorem withoutEnding_append (ending t : String) : withoutEnding ending (t ++ ending) = t := by
  have ends : ending.toList.isSuffixOf (t ++ ending).toList = true := by
    simp
  rw [withoutEnding, if_pos ends, String.toList_append, List.length_append, Nat.add_sub_cancel,
    List.take_left, String.ofList_toList]

theorem withoutEnding_of_not {ending t : String} (h : ¬ Ends ending t) :
    withoutEnding ending t = t := by
  rw [withoutEnding, if_neg]
  simpa [Ends] using h

theorem not_ends_and (t : String) : ¬ Ends Join.and.text (t ++ Join.or.text) := by
  intro ends
  have back := List.reverse_prefix.mpr ends
  simp [Join.text] at back

theorem ends_append {ending c : String} (long : ending.toList.length ≤ c.toList.length)
    (t : String) : Ends ending (t ++ c) ↔ Ends ending c := by
  unfold Ends
  rw [String.toList_append]
  constructor
  · intro ends
    exact List.suffix_of_suffix_length_le ends (List.suffix_append _ _) long
  · intro ends
    exact ends.trans (List.suffix_append _ _)

theorem eq_append_of_ends {ending c : String} (h : Ends ending c) : ∃ t, c = t ++ ending := by
  obtain ⟨cs, same⟩ := h
  refine ⟨String.ofList cs, ?_⟩
  rw [← String.toList_inj, ← same]
  simp

theorem withoutEnding_append_of_le {ending c : String}
    (long : ending.toList.length ≤ c.toList.length) (t : String) :
    withoutEnding ending (t ++ c) = t ++ withoutEnding ending c := by
  by_cases ends : Ends ending c
  · obtain ⟨front, rfl⟩ := eq_append_of_ends ends
    rw [withoutEnding_append, ← String.append_assoc, withoutEnding_append]
  · rw [withoutEnding_of_not ends, withoutEnding_of_not (mt (ends_append long t).mp ends)]

theorem length_le_withoutEnding (ending t : String) :
    t.toList.length ≤ (withoutEnding ending t).toList.length + ending.toList.length := by
  unfold withoutEnding
  split
  · simp only [String.toList_ofList, List.length_take]
    omega
  · omega

/-! ### Clauses -/

def clause? : Filter → Option String
  | .compare column operator value => some (comparison column operator value)
  | .contains values negated column => some (membership values negated column)
  | .group filters => if compile filters = "" then none else some ("(" ++ compile filters ++ ")")
  | .either => none

def joinAfter : Filter → Join → Join
  | .either, _ => .or
  | _, j => j

def isEither : Filter → Bool
  | .either => true
  | _ => false

theorem extend_eq (f : Filter) (t : String) :
    extend f t = if isEither f then alternate t else (clause? f).elim t (addClause t) := by
  cases f with
  | compare column operator value => rfl
  | contains values negated column => rfl
  | group filters =>
    rw [extend, clause?]
    show (if compile filters = "" then t else _) = _
    split <;> rfl
  | either => rfl

theorem extend_of_some {f : Filter} {c : String} (h : clause? f = some c) (t : String) :
    extend f t = t ++ c ++ Join.and.text := by
  have unmarked : isEither f = false := by
    cases f with
    | either => cases h
    | _ => rfl
  rw [extend_eq, unmarked, h]
  rfl

theorem alternate_join (t : String) (j : Join) : alternate (t ++ j.text) = t ++ Join.or.text := by
  cases j with
  | and =>
    rw [alternate, if_pos (by simp), withoutEnding_append]
  | or =>
    rw [alternate, if_neg]
    simpa [Ends] using not_ends_and t

theorem extend_of_none {f : Filter} (h : clause? f = none) (t : String) (j : Join) :
    extend f (t ++ j.text) = t ++ (joinAfter f j).text := by
  rw [extend_eq, h]
  cases f with
  | either => exact alternate_join t j
  | _ => rfl

theorem extend_empty {f : Filter} (h : clause? f = none) : extend f "" = "" := by
  rw [extend_eq, h]
  cases f <;> rfl

/-! ### Ends of clauses -/

def Closed (c : String) : Prop := ∃ cs last, c.toList = cs ++ [last] ∧ last ≠ ' '

theorem Closed.append {c : String} (h : Closed c) (t : String) : Closed (t ++ c) := by
  obtain ⟨cs, last, chars, plain⟩ := h
  exact ⟨t.toList ++ cs, last, by rw [String.toList_append, chars, List.append_assoc], plain⟩

theorem Closed.not_ends {c : String} (h : Closed c) : ¬ Ends Join.or.text c := by
  obtain ⟨cs, last, chars, plain⟩ := h
  intro ends
  unfold Ends at ends
  rw [chars] at ends
  have back := List.reverse_prefix.mpr ends
  simp [Join.text] at back
  exact plain back.1.symm

theorem closed_ofJson (v : Json) : Closed (Literal.ofJson v) := by
  have quote : Closed "'" := ⟨[], '\'', by decide, by decide⟩
  have bracket : Closed "]" := ⟨[], ']', by decide, by decide⟩
  have brace : Closed "\x7d" := ⟨[], '\x7d', by decide, by decide⟩
  cases v with
  | null => exact ⟨['N', 'U', 'L'], 'L', by decide, by decide⟩
  | bool b =>
    cases b
    · exact ⟨['f', 'a', 'l', 's'], 'e', by decide, by decide⟩
    · exact ⟨['t', 'r', 'u'], 'e', by decide, by decide⟩
  | number n =>
    obtain ⟨some_text, numerals⟩ := Literal.numerals_number n
    have chars : n.text.toList ≠ [] := mt String.toList_eq_nil_iff.mp some_text
    refine ⟨_, _, (List.dropLast_concat_getLast chars).symm, ?_⟩
    intro blank
    have numeral := numerals _ (List.getLast_mem chars)
    rw [blank] at numeral
    exact absurd numeral (by decide)
  | string t => exact quote.append _
  | array items => exact bracket.append _
  | object fields => exact brace.append _

theorem membership_toList (values : List Json) (negated : Bool) (column : String) :
    ∃ front s, (membership values negated column).toList = front ++ s :: ' ' :: column.toList ∧
      s ≠ 'R' ∧ 4 ≤ front.length := by
  cases negated with
  | false =>
    refine ⟨(Literal.ofJson (.array values)).toList ++ " CONTAIN".toList, 'S', ?_, by decide, ?_⟩
    · simp [membership]
    · simp
  | true =>
    refine ⟨(Literal.ofJson (.array values)).toList ++ " CONTAINSNO".toList, 'T', ?_, by decide, ?_⟩
    · simp [membership]
    · simp

theorem ends_membership {values : List Json} {negated : Bool} {column : String}
    (h : Ends Join.or.text (membership values negated column)) :
    Ends Join.or.text (" " ++ column) := by
  obtain ⟨front, s, chars, other, -⟩ := membership_toList values negated column
  unfold Ends at h ⊢
  rw [chars] at h
  have inside : ' ' :: column.toList <:+ front ++ s :: ' ' :: column.toList :=
    ⟨front ++ [s], by simp⟩
  have chars : (" " ++ column).toList = ' ' :: column.toList := by simp
  rw [chars]
  have back := List.reverse_prefix.mpr h
  -- With fewer than three characters the ending would reach into the operator.
  match text : column.toList with
  | [] =>
    simp [text, Join.text] at back
    exact absurd back.1.symm other
  | [a] => simp [text, Join.text] at back
  | [a, b] => simp [text, Join.text] at back
  | a :: b :: c :: rest =>
    rw [text] at h inside
    exact List.suffix_of_suffix_length_le h inside (by simp [Join.text])

theorem clause_ends {f : Filter} {c : String} (h : clause? f = some c) :
    Closed c ∨ ∃ values negated column,
      f = .contains values negated column ∧ c = membership values negated column := by
  cases f with
  | compare column operator value =>
    cases h
    exact Or.inl ((closed_ofJson value).append _)
  | contains values negated column =>
    cases h
    exact Or.inr ⟨values, negated, column, rfl, rfl⟩
  | group filters =>
    rw [clause?] at h
    split at h
    · cases h
    · cases h
      have paren : Closed ")" := ⟨[], ')', by decide, by decide⟩
      exact Or.inl (paren.append _)
  | either => cases h

theorem clause_cut {f : Filter} {c : String} (h : clause? f = some c) :
    (∀ t, withoutEnding Join.or.text (t ++ c) = t ++ withoutEnding Join.or.text c) ∧
      withoutEnding Join.or.text c ≠ "" := by
  rcases clause_ends h with closed | ⟨values, negated, column, -, rfl⟩
  · have same := withoutEnding_of_not closed.not_ends
    refine ⟨fun t => ?_, ?_⟩
    · rw [same, withoutEnding_of_not (closed.append t).not_ends]
    · obtain ⟨cs, last, chars, -⟩ := closed
      intro empty
      rw [same.symm.trans empty] at chars
      simp at chars
  · obtain ⟨front, s, chars, -, long⟩ := membership_toList values negated column
    have size : Join.or.text.toList.length < (membership values negated column).toList.length := by
      rw [chars]
      simp [Join.text]
      omega
    refine ⟨withoutEnding_append_of_le (by omega), fun empty => ?_⟩
    have left := length_le_withoutEnding Join.or.text (membership values negated column)
    rw [empty] at left
    simp only [String.toList_empty, List.length_nil] at left
    omega

/-! ### Joins -/

/-- The clauses of filters, each with the join in front of it; one waits for the first clause. -/
def joins : Join → List Filter → List (Join × String)
  | _, [] => []
  | j, f :: rest =>
    match clause? f with
    | some c => (j, c) :: joins .and rest
    | none => joins (joinAfter f j) rest

def waiting : Join → List Filter → Join
  | j, [] => j
  | j, f :: rest =>
    match clause? f with
    | some _ => waiting .and rest
    | none => waiting (joinAfter f j) rest

def joinedText : List (Join × String) → String
  | [] => ""
  | (j, c) :: rest => j.text ++ c ++ joinedText rest

/-- Clauses from the first one on, which has no join in front. -/
def render : List (Join × String) → String
  | [] => ""
  | (_, c) :: rest => c ++ joinedText rest

def cutLast : List (Join × String) → List (Join × String)
  | [] => []
  | [(j, c)] => [(j, withoutEnding Join.or.text c)]
  | p :: q :: rest => p :: cutLast (q :: rest)

/-- The last clause is cut where a clause was written after the last marker. -/
def settle : Join → List (Join × String) → List (Join × String)
  | .and, clauses => cutLast clauses
  | .or, clauses => clauses

theorem joins_append (fs gs : List Filter) (j : Join) :
    joins j (fs ++ gs) = joins j fs ++ joins (waiting j fs) gs := by
  induction fs generalizing j with
  | nil => rfl
  | cons f rest ih =>
    rw [List.cons_append, joins, joins, waiting]
    cases clause? f with
    | none => exact ih _
    | some c => exact congrArg ((j, c) :: ·) (ih .and)

theorem waiting_append (fs gs : List Filter) (j : Join) :
    waiting j (fs ++ gs) = waiting (waiting j fs) gs := by
  induction fs generalizing j with
  | nil => rfl
  | cons f rest ih =>
    rw [List.cons_append, waiting, waiting]
    cases clause? f with
    | none => exact ih _
    | some c => exact ih .and

/-- What is written behind a clause ends with the join that waits for the next one. -/
theorem extendAll_join (fs : List Filter) (t : String) (j : Join) :
    extendAll fs (t ++ j.text) = t ++ joinedText (joins j fs) ++ (waiting j fs).text := by
  -- On the filters, for any join that waits: a clause uses it up, and a marker replaces it.
  induction fs generalizing t j with
  | nil => simp [extendAll, joins, waiting, joinedText]
  | cons f rest ih =>
    rw [extendAll, joins, waiting]
    cases h : clause? f with
    | none => rw [extend_of_none h, ih]
    | some c =>
      rw [extend_of_some h, ih (t ++ j.text ++ c) .and]
      simp only [joinedText, String.append_assoc]

theorem extendAll_empty (fs : List Filter) (j : Join) :
    extendAll fs "" =
      if joins j fs = [] then "" else render (joins j fs) ++ (waiting j fs).text := by
  induction fs generalizing j with
  | nil => rfl
  | cons f rest ih =>
    rw [extendAll, joins, waiting]
    cases h : clause? f with
    | none => rw [extend_empty h, ih]
    | some c =>
      rw [extend_of_some h, String.empty_append, extendAll_join]
      simp [render]

theorem mem_joins {j : Join} {fs : List Filter} {p : Join × String} (h : p ∈ joins j fs) :
    ∃ f ∈ fs, clause? f = some p.2 := by
  induction fs generalizing j with
  | nil => cases h
  | cons f rest ih =>
    rw [joins] at h
    cases found : clause? f with
    | none =>
      rw [found] at h
      obtain ⟨g, member, clause⟩ := ih h
      exact ⟨g, List.mem_cons_of_mem _ member, clause⟩
    | some c =>
      rw [found] at h
      rcases List.mem_cons.mp h with rfl | h
      · exact ⟨f, List.mem_cons_self, found⟩
      · obtain ⟨g, member, clause⟩ := ih h
        exact ⟨g, List.mem_cons_of_mem _ member, clause⟩

def Cuttable (clauses : List (Join × String)) : Prop :=
  ∀ p ∈ clauses, ∀ t, withoutEnding Join.or.text (t ++ p.2) = t ++ withoutEnding Join.or.text p.2

theorem cuttable_joins (j : Join) (fs : List Filter) : Cuttable (joins j fs) := by
  intro p member
  obtain ⟨f, -, clause⟩ := mem_joins member
  exact (clause_cut clause).1

theorem withoutEnding_joinedText {clauses : List (Join × String)} (cuttable : Cuttable clauses)
    (some_clause : clauses ≠ []) (t : String) :
    withoutEnding Join.or.text (t ++ joinedText clauses) = t ++ joinedText (cutLast clauses) := by
  induction clauses generalizing t with
  | nil => exact absurd rfl some_clause
  | cons p rest ih =>
    obtain ⟨j, c⟩ := p
    cases rest with
    | nil =>
      have cut := cuttable (j, c) List.mem_cons_self (t ++ j.text)
      simpa [joinedText, cutLast, String.append_assoc] using cut
    | cons q rest =>
      have later := ih (fun p member => cuttable p (List.mem_cons_of_mem _ member)) (by simp)
        (t ++ (j.text ++ c))
      show withoutEnding Join.or.text (t ++ (j.text ++ c ++ joinedText (q :: rest))) =
        t ++ (j.text ++ c ++ joinedText (cutLast (q :: rest)))
      rw [← String.append_assoc, later, String.append_assoc]

theorem withoutEnding_render {clauses : List (Join × String)} (cuttable : Cuttable clauses)
    (some_clause : clauses ≠ []) :
    withoutEnding Join.or.text (render clauses) = render (cutLast clauses) := by
  cases clauses with
  | nil => exact absurd rfl some_clause
  | cons p rest =>
    obtain ⟨j, c⟩ := p
    cases rest with
    | nil => simp [render, joinedText, cutLast]
    | cons q rest =>
      exact withoutEnding_joinedText (fun p member => cuttable p (List.mem_cons_of_mem _ member))
        (by simp) c

/-- A condition is its clauses with the joins that waited before them. -/
theorem compile_eq_render (fs : List Filter) :
    compile fs = render (settle (waiting .and fs) (joins .and fs)) := by
  rw [compile, extendAll_empty fs .and]
  split
  · next nothing =>
    rw [nothing]
    cases waiting .and fs <;> rfl
  · next some_clause =>
    rw [finish]
    cases waiting .and fs with
    | and =>
      rw [withoutEnding_append, withoutEnding_render (cuttable_joins _ fs) some_clause]
      rfl
    | or =>
      rw [withoutEnding_of_not (not_ends_and _), withoutEnding_append]
      rfl

theorem ne_empty_of_withoutEnding {ending c : String} (h : withoutEnding ending c ≠ "") :
    c ≠ "" := by
  rintro rfl
  apply h
  simp [withoutEnding]

theorem render_settle_ne_empty {clauses : List (Join × String)} (some_clause : clauses ≠ [])
    (left : ∀ p ∈ clauses, withoutEnding Join.or.text p.2 ≠ "") (j : Join) :
    render (settle j clauses) ≠ "" := by
  match clauses with
  | [] => exact absurd rfl some_clause
  | [(_, c)] =>
    have cut := left _ List.mem_cons_self
    cases j with
    | and => simpa [settle, cutLast, render, joinedText] using cut
    | or => simpa [settle, render, joinedText] using ne_empty_of_withoutEnding cut
  | (_, c) :: q :: rest =>
    have whole := ne_empty_of_withoutEnding (left _ List.mem_cons_self)
    cases j with
    | and => simp [settle, cutLast, render, whole]
    | or => simp [settle, render, whole]

theorem compile_eq_empty_iff (fs : List Filter) : compile fs = "" ↔ joins .and fs = [] := by
  rw [compile_eq_render]
  constructor
  · intro empty
    by_cases nothing : joins .and fs = []
    · exact nothing
    refine absurd empty (render_settle_ne_empty nothing ?_ _)
    intro p member
    obtain ⟨f, -, clause⟩ := mem_joins member
    exact (clause_cut clause).2
  · intro nothing
    rw [nothing]
    cases waiting .and fs <;> rfl

/-! ### The meaning of filters -/

mutual

/-- Whether there is a condition or a membership, at any depth. -/
def hasLeaf : Filter → Bool
  | .compare _ _ _ | .contains _ _ _ => true
  | .group filters => anyLeaf filters
  | .either => false

def anyLeaf : List Filter → Bool
  | [] => false
  | f :: rest => hasLeaf f || anyLeaf rest

end

/-- The join in front of the first filter with a leaf: whether a marker stands before it. -/
def joinBefore (fs : List Filter) : Join :=
  if (fs.takeWhile fun f => !hasLeaf f).any isEither then .or else .and

mutual

def clauseText : Filter → String
  | .compare column operator value =>
    column ++ " " ++ operator ++ " " ++ Literal.ofJson value
  | .contains values negated column =>
    "[" ++ ", ".intercalate (values.map Literal.ofJson) ++ "] CONTAINS"
      ++ (if negated then "NOT" else "") ++ " " ++ column
  | .group filters => "(" ++ conditionText filters ++ ")"
  | .either => ""

/-- The filters with a leaf in order, each behind the join that the markers since the one before it
ask for. -/
def conditionText : List Filter → String
  | [] => ""
  | f :: rest =>
    if hasLeaf f then
      clauseText f ++ (if anyLeaf rest then (joinBefore rest).text ++ conditionText rest else "")
    else conditionText rest

end

theorem clauseText_compare (column operator : String) (value : Json) :
    clauseText (.compare column operator value) = comparison column operator value := by
  rw [clauseText, comparison]

theorem clauseText_contains (values : List Json) (negated : Bool) (column : String) :
    clauseText (.contains values negated column) = membership values negated column := by
  rw [clauseText, membership, Literal.ofJson, Literal.ofItems_eq_map]
  cases negated <;> simp [← String.toList_inj]

mutual

def memberColumns : Filter → List String
  | .contains _ _ column => [column]
  | .group filters => allMemberColumns filters
  | .compare _ _ _ | .either => []

def allMemberColumns : List Filter → List String
  | [] => []
  | f :: rest => memberColumns f ++ allMemberColumns rest

end

mutual

theorem isSome_clause? : ∀ f : Filter, (clause? f).isSome = hasLeaf f
  | .compare _ _ _ => rfl
  | .contains _ _ _ => rfl
  | .group filters => by
    have leaves := (compile_eq_empty_iff filters).trans (joins_eq_nil_iff filters .and)
    rw [clause?, hasLeaf]
    cases found : anyLeaf filters with
    | false => rw [if_pos (leaves.mpr found)]; rfl
    | true => rw [if_neg (by simp [leaves, found])]; rfl
  | .either => rfl

theorem joins_eq_nil_iff : ∀ (fs : List Filter) (j : Join), joins j fs = [] ↔ anyLeaf fs = false
  | [], _ => by simp [joins, anyLeaf]
  | f :: rest, j => by
    have leaf := isSome_clause? f
    rw [joins, anyLeaf, ← leaf]
    cases clause? f with
    | none => simpa using joins_eq_nil_iff rest _
    | some c => simp

end

theorem compile_eq_empty_iff_anyLeaf (fs : List Filter) : compile fs = "" ↔ anyLeaf fs = false :=
  (compile_eq_empty_iff fs).trans (joins_eq_nil_iff fs .and)

theorem clause?_of_not_hasLeaf {f : Filter} (h : hasLeaf f = false) : clause? f = none := by
  have none := isSome_clause? f
  rw [h] at none
  exact Option.isNone_iff_eq_none.mp (by simpa using none)

theorem allMemberColumns_eq_flatMap (fs : List Filter) :
    allMemberColumns fs = fs.flatMap memberColumns := by
  induction fs with
  | nil => rfl
  | cons f rest ih => rw [allMemberColumns, ih, List.flatMap_cons]

theorem cutLast_eq_self {clauses : List (Join × String)}
    (whole : ∀ p ∈ clauses, ¬ Ends Join.or.text p.2) : cutLast clauses = clauses := by
  match clauses with
  | [] => rfl
  | [(j, c)] => rw [cutLast, withoutEnding_of_not (whole (j, c) List.mem_cons_self)]
  | p :: q :: rest =>
    rw [cutLast, cutLast_eq_self fun p member => whole p (List.mem_cons_of_mem _ member)]

/-- Columns of which none can be taken for a join. -/
def PlainColumns (columns : List String) : Prop :=
  ∀ c ∈ columns, ¬ Ends Join.or.text (" " ++ c)

instance (columns : List String) : Decidable (PlainColumns columns) :=
  List.decidableBAll _ _

theorem settle_joins {fs : List Filter} (plain : PlainColumns (allMemberColumns fs)) (j k : Join) :
    settle j (joins k fs) = joins k fs := by
  cases j with
  | or => rfl
  | and =>
    apply cutLast_eq_self
    intro p member
    obtain ⟨f, inside, clause⟩ := mem_joins member
    rcases clause_ends clause with closed | ⟨values, negated, column, rfl, text⟩
    · exact closed.not_ends
    · intro ends
      rw [text] at ends
      rw [allMemberColumns_eq_flatMap] at plain
      exact plain column (List.mem_flatMap_of_mem inside List.mem_cons_self) (ends_membership ends)

def Join.merge : Join → Join → Join
  | .or, _ => .or
  | .and, j => j

theorem merge_joinBefore_of_leaf {f : Filter} (h : hasLeaf f = true) (rest : List Filter)
    (j : Join) : j.merge (joinBefore (f :: rest)) = j := by
  have none : joinBefore (f :: rest) = .and := by simp [joinBefore, h]
  rw [none]
  cases j <;> rfl

theorem merge_joinBefore_of_no_leaf {f : Filter} (h : hasLeaf f = false) (rest : List Filter)
    (j : Join) : j.merge (joinBefore (f :: rest)) = (joinAfter f j).merge (joinBefore rest) := by
  have later : (f :: rest).takeWhile (fun f => !hasLeaf f) =
      f :: rest.takeWhile fun f => !hasLeaf f := by simp [h]
  unfold joinBefore
  rw [later, List.any_cons]
  cases f <;> cases j <;> simp [isEither, joinAfter, Join.merge]

mutual

theorem clause?_eq_clauseText : ∀ f : Filter, PlainColumns (memberColumns f) →
    ∀ c, clause? f = some c → c = clauseText f
  | .compare _ _ _, _ => by
    intro c h
    rw [clauseText_compare]
    exact (Option.some.inj h).symm
  | .contains _ _ _, _ => by
    intro c h
    rw [clauseText_contains]
    exact (Option.some.inj h).symm
  | .group filters, plain => by
    intro c h
    rw [clause?] at h
    split at h
    · cases h
    · cases h
      have inside := (render_joins filters .and plain).1
      rw [clauseText, compile_eq_render, settle_joins plain, inside]
  | .either, _ => by
    intro c h
    cases h

theorem render_joins : ∀ (fs : List Filter) (j : Join), PlainColumns (allMemberColumns fs) →
    render (joins j fs) = conditionText fs ∧
      joinedText (joins j fs) =
        if anyLeaf fs then (j.merge (joinBefore fs)).text ++ conditionText fs else ""
  | [], j, _ => ⟨rfl, rfl⟩
  | f :: rest, j, plain => by
    have first : PlainColumns (memberColumns f) :=
      fun c member => plain c (List.mem_append_left _ member)
    have others : PlainColumns (allMemberColumns rest) :=
      fun c member => plain c (List.mem_append_right _ member)
    rw [joins, anyLeaf, conditionText]
    cases leaf : hasLeaf f with
    | false =>
      rw [clause?_of_not_hasLeaf leaf, merge_joinBefore_of_no_leaf leaf]
      simpa using render_joins rest (joinAfter f j) others
    | true =>
      obtain ⟨c, clause⟩ := Option.isSome_iff_exists.mp ((isSome_clause? f).trans leaf)
      have text := clause?_eq_clauseText f first c clause
      have behind := (render_joins rest .and others).2
      rw [clause, merge_joinBefore_of_leaf leaf]
      simp only [render, joinedText, text, behind]
      simp [Join.merge, String.append_assoc]

end

theorem compile_either (fs : List Filter) : compile (.either :: fs) = compile fs := by
  have start : alternate "" = "" := by decide
  rw [compile, extendAll, extend, start, compile]

/-- A condition has the clauses that have a leaf, joined by `OR` where a marker stands between them
and by `AND` elsewhere, provided that no column of a membership can be taken for a join. Markers
before the first clause, behind the last one or next to another say nothing, and without a leaf
there is no text. -/
theorem compile_eq_conditionText (fs : List Filter) (plain : PlainColumns (allMemberColumns fs)) :
    compile fs = conditionText fs ∧
    (compile fs = "" ↔ anyLeaf fs = false) ∧
    compile (.either :: fs) = compile fs ∧
    compile (fs ++ [.either]) = compile fs ∧
    (∀ before after, fs = before ++ .either :: after →
      compile (before ++ .either :: .either :: after) = compile fs) := by
  have written : compile fs = render (joins .and fs) := by
    rw [compile_eq_render, settle_joins plain]
  refine ⟨?_, compile_eq_empty_iff_anyLeaf fs, compile_either fs, ?_, ?_⟩
  · rw [written]
    exact (render_joins fs .and plain).1
  · have same : joins .and (fs ++ [.either]) = joins .and fs := by
      rw [joins_append]
      exact List.append_nil _
    have ends : waiting .and (fs ++ [.either]) = .or := waiting_append _ _ _
    rw [compile_eq_render, same, ends, written]
    rfl
  · rintro before after rfl
    rw [compile_eq_render, compile_eq_render, joins_append, joins_append, waiting_append,
      waiting_append]
    rfl

def sampleFilters : List Filter :=
  [.either, equal "a" (Json.ofNat 1), .group [.group [], .either], .either, .either,
    .group [.contains [.string "x", .null] false "tags", .either],
    .contains [.bool true] true "flags", .either]

theorem compile_sample :
    compile sampleFilters =
        "a = 1 OR (['x', NULL] CONTAINS tags) AND [true] CONTAINSNOT flags" ∧
      compile sampleFilters ≠ "" ∧
      compile (.either :: sampleFilters) = compile sampleFilters ∧
      compile (.either :: .either :: sampleFilters.tail) = compile sampleFilters := by
  have all := compile_eq_conditionText sampleFilters (by decide)
  refine ⟨all.1.trans (by decide), ?_, all.2.2.1, all.2.2.2.2 [] sampleFilters.tail rfl⟩
  exact fun empty => absurd (all.2.1.mp empty) (by decide)

end RecordClient.Filter
