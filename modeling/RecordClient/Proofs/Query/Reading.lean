import Mathlib.Data.List.Basic
import RecordClient.Proofs.Query.NormalForm
/-!
# Reading conditions back

`read?` reads the filters of a condition from its text. `compile_unambiguous` shows that it finds
the normal form of the filters that were compiled, where blanks and brackets in the names of columns
and operators cannot be taken for those of a clause.
-/
namespace RecordClient.Filter

open Literal (readValue readValue_ofJson Delimits)

/-! ### A reader -/

/-- What stands before the first character of a kind, and the text from that one on. -/
def readUntil (ends : Char → Bool) (cs : List Char) : String × List Char :=
  (String.ofList (cs.takeWhile fun c => !ends c), cs.dropWhile fun c => !ends c)

/-- Reads a name and the blank behind it. -/
def readName (cs : List Char) : Option (String × List Char) :=
  match readUntil (· = ' ') cs with
  | (name, _ :: rest) => some (name, rest)
  | (_, []) => none

/-- Reads the first of some words that a text starts with. -/
def readOneOf {α : Type} (word : α → String) : List α → List Char → Option (α × List Char)
  | [], _ => none
  | a :: more, cs =>
    match cs.dropPrefix? (word a).toList with
    | some rest => some (a, rest)
    | none => readOneOf word more cs

def readJoin : List Char → Option (Join × List Char) := readOneOf Join.text [.and, .or]

def memberWord (negated : Bool) : String := if negated then " CONTAINSNOT " else " CONTAINS "

variable (number : String → Option Json.Number)

def readComparison (cs : List Char) : Option (Filter × List Char) := do
  let (column, cs) ← readName cs
  let (operator, cs) ← readName cs
  let (value, rest) ← readValue number cs.length cs
  some (.compare column operator value, rest)

def readMembership (cs : List Char) : Option (Filter × List Char) := do
  match ← readValue number cs.length cs with
  | (.array values, cs) =>
    let (negated, cs) ← readOneOf memberWord [false, true] cs
    let (column, rest) := readUntil (fun c => c = ' ' || c = ')') cs
    some (.contains values negated column, rest)
  | _ => none

/-- Reads a clause; `inner` reads what stands between parentheses. -/
def readClause (inner : List Char → Option (List (Join × Filter) × List Char)) :
    List Char → Option (Filter × List Char)
  | '(' :: cs => do
    match ← inner cs with
    | (ls, ')' :: rest) => some (.group (chain ls), rest)
    | _ => none
  | '[' :: cs => readMembership number ('[' :: cs)
  | cs => readComparison number cs

/-- Reads clauses and the joins between them; `j` stands in front of the first one. -/
def readLinks : Nat → Join → List Char → Option (List (Join × Filter) × List Char)
  | 0, _, _ => none
  | fuel + 1, j, cs => do
    let (f, rest) ← readClause number (readLinks fuel .and) cs
    match readJoin rest with
    | some (k, rest) =>
      let (more, rest) ← readLinks fuel k rest
      some ((j, f) :: more, rest)
    | none => some ([(j, f)], rest)

def read? (t : String) : Option (List Filter) :=
  if t = "" then some []
  else
    match readLinks number (t.toList.length + 1) .and t.toList with
    | some (ls, []) => some (chain ls)
    | _ => none

/-! ### Names that can be read -/

mutual

/-- Whether names can be told from the blanks and brackets around them: there is no blank in a
column or an operator, the column of a comparison does not start like another clause, and the column
of a membership does not close a group. -/
def legible : Filter → Bool
  | .compare column operator _ =>
    ' ' ∉ column.toList ∧ ' ' ∉ operator.toList ∧
      column.toList.head? ≠ some '(' ∧ column.toList.head? ≠ some '['
  | .contains _ _ column => ' ' ∉ column.toList ∧ ')' ∉ column.toList
  | .group filters => allLegible filters
  | .either => true

def allLegible : List Filter → Bool
  | [] => true
  | f :: rest => legible f && allLegible rest

end

mutual

def numbers : Filter → List Json.Number
  | .compare _ _ value => Literal.numbers value
  | .contains values _ _ => Literal.numbersOfItems values
  | .group filters => allNumbers filters
  | .either => []

def allNumbers : List Filter → List Json.Number
  | [] => []
  | f :: rest => numbers f ++ allNumbers rest

end

/-- A filter whose clause can be read back. -/
structure Readable (S : Json.Number → Prop) (f : Filter) : Prop where
  leaf : hasLeaf f = true
  legible : legible f = true
  known : ∀ n ∈ numbers f, S n

theorem legible_of_mem {fs : List Filter} (h : allLegible fs = true) {f : Filter}
    (member : f ∈ fs) : legible f = true := by
  induction fs with
  | nil => cases member
  | cons g rest ih =>
    rw [allLegible, Bool.and_eq_true] at h
    rcases List.mem_cons.mp member with rfl | member
    · exact h.1
    · exact ih h.2 member

theorem allNumbers_eq_flatMap (fs : List Filter) : allNumbers fs = fs.flatMap numbers := by
  induction fs with
  | nil => rfl
  | cons f rest ih => rw [allNumbers, ih, List.flatMap_cons]

theorem readable_links {S : Json.Number → Prop} {fs : List Filter} (h : allLegible fs = true)
    (known : ∀ n ∈ allNumbers fs, S n) (j : Join) : ∀ p ∈ links j fs, Readable S p.2 := by
  intro p member
  obtain ⟨inside, leaf⟩ := mem_links member
  refine ⟨leaf, legible_of_mem h inside, fun n found => known n ?_⟩
  rw [allNumbers_eq_flatMap]
  exact List.mem_flatMap_of_mem inside found

theorem not_ends_or {column : String} (h : ' ' ∉ column.toList) :
    ¬ Ends Join.or.text (" " ++ column) := by
  intro ends
  have chars : Join.or.text.toList <:+ ' ' :: column.toList := by simpa [Ends] using ends
  rcases List.suffix_cons_iff.mp chars with whole | inside
  · have same : ['O', 'R', ' '] = column.toList := (List.cons.inj whole).2
    exact h (by rw [← same]; simp)
  · exact h (inside.subset (by decide))

mutual

theorem plainColumns : ∀ f : Filter, legible f = true → PlainColumns (memberColumns f)
  | .compare _ _ _, _ => nofun
  | .contains _ _ column, h => by
    intro c member
    rw [List.mem_singleton.mp member]
    exact not_ends_or (of_decide_eq_true h).1
  | .group filters, h => plainColumns_all filters h
  | .either, _ => nofun

theorem plainColumns_all : ∀ fs : List Filter, allLegible fs = true →
    PlainColumns (allMemberColumns fs)
  | [], _ => nofun
  | f :: rest, h => by
    rw [allLegible, Bool.and_eq_true] at h
    exact (plainColumns_cons_iff f rest).mpr ⟨plainColumns f h.1, plainColumns_all rest h.2⟩

end

/-! ### Reading what was written -/

theorem readUntil_append {ends : Char → Bool} {name : String}
    (inside : ∀ c ∈ name.toList, ends c = false) {r : List Char}
    (ended : ∀ c ∈ r.head?, ends c = true) : readUntil ends (name.toList ++ r) = (name, r) := by
  have front : (r.takeWhile fun c => !ends c) = [] ∧ (r.dropWhile fun c => !ends c) = r := by
    cases r with
    | nil => exact ⟨rfl, rfl⟩
    | cons c rest => simp [ended c rfl]
  have passed : ∀ c ∈ name.toList, (!ends c) = true := by
    intro c member
    rw [inside c member]
    rfl
  rw [readUntil, List.takeWhile_append_of_pos passed, List.dropWhile_append_of_pos passed, front.1,
    front.2, List.append_nil, String.ofList_toList]

theorem readName_append {name : String} (h : ' ' ∉ name.toList) (r : List Char) :
    readName (name.toList ++ ' ' :: r) = some (name, r) := by
  have inside : ∀ c ∈ name.toList, decide (c = ' ') = false := by
    intro c member
    refine decide_eq_false ?_
    rintro rfl
    exact h member
  rw [readName, readUntil_append inside (by simp)]

theorem readJoin_text (j : Join) (r : List Char) : readJoin (j.text.toList ++ r) = some (j, r) := by
  cases j <;> simp [readJoin, readOneOf, Join.text, List.dropPrefix?]

theorem readMemberWord (negated : Bool) (r : List Char) :
    readOneOf memberWord [false, true] ((memberWord negated).toList ++ r) = some (negated, r) := by
  cases negated <;> simp [readOneOf, memberWord, List.dropPrefix?]

/-- What follows the last clause: nothing, or the end of a group. -/
def Closes (r : List Char) : Prop := ∀ c ∈ r.head?, c = ')'

theorem readJoin_of_closes {r : List Char} (h : Closes r) : readJoin r = none := by
  cases r with
  | nil => simp [readJoin, readOneOf, Join.text, List.dropPrefix?]
  | cons c rest =>
    rw [h c rfl]
    simp [readJoin, readOneOf, Join.text, List.dropPrefix?]

/-- What follows a clause: nothing, a blank, or the end of a group. -/
def EndsClause (r : List Char) : Prop := ∀ c ∈ r.head?, c = ' ' ∨ c = ')'

theorem EndsClause.delimits {r : List Char} (h : EndsClause r) : Delimits r := by
  cases r with
  | nil => trivial
  | cons c rest => rcases h c rfl with rfl | rfl <;> simp [Delimits]

theorem compile_of_legible {fs : List Filter} (h : allLegible fs = true) :
    compile fs = conditionText fs := by
  have plain := plainColumns_all fs h
  rw [compile_eq_render, settle_joins plain, (render_joins fs .and plain).1]

theorem readClause_comparison {number : String → Option Json.Number}
    {inner : List Char → Option (List (Join × Filter) × List Char)} {cs : List Char}
    (group : cs.head? ≠ some '(') (list : cs.head? ≠ some '[') :
    readClause number inner cs = readComparison number cs := by
  unfold readClause
  split
  · exact absurd rfl group
  · exact absurd rfl list
  · rfl

theorem linkedText_toList (j : Join) (f : Filter) (ls : List (Join × Filter)) :
    (linkedText ((j, f) :: ls)).toList =
      (clauseText f).toList ++ (joinedText (mapFilters clauseText ls)).toList :=
  String.toList_append

theorem joinedText_cons (j : Join) (f : Filter) (ls : List (Join × Filter)) :
    (joinedText (mapFilters clauseText ((j, f) :: ls))).toList =
      j.text.toList ++ (linkedText ((j, f) :: ls)).toList := by
  rw [linkedText_toList, ← List.append_assoc, ← String.toList_append, ← String.toList_append]
  rfl

section

variable {S : Json.Number → Prop} {number : String → Option Json.Number}
  (reads : ∀ n, S n → number n.text = some n)

include reads

theorem readValue_append {v : Json} (known : ∀ n ∈ Literal.numbers v, S n) {r : List Char}
    (d : Delimits r) :
    readValue number ((Literal.ofJson v).toList ++ r).length ((Literal.ofJson v).toList ++ r) =
      some (v, r) := by
  refine readValue_ofJson reads _ v known ?_ r d
  rw [List.length_append]
  omega

theorem readComparison_append {column operator : String} {v : Json} (hc : ' ' ∉ column.toList)
    (ho : ' ' ∉ operator.toList) (known : ∀ n ∈ Literal.numbers v, S n) {r : List Char}
    (d : Delimits r) :
    readComparison number ((comparison column operator v).toList ++ r) =
      some (.compare column operator v, r) := by
  have chars : (comparison column operator v).toList ++ r =
      column.toList ++ ' ' :: (operator.toList ++ ' ' :: ((Literal.ofJson v).toList ++ r)) := by
    simp [comparison]
  simp only [readComparison, chars, readName_append hc, readName_append ho,
    readValue_append reads known d, bind, Option.bind]

theorem readMembership_append {values : List Json} {negated : Bool} {column : String}
    (unspaced : ' ' ∉ column.toList) (unclosed : ')' ∉ column.toList)
    (known : ∀ n ∈ Literal.numbersOfItems values, S n) {r : List Char} (ends : EndsClause r) :
    readMembership number ((membership values negated column).toList ++ r) =
      some (.contains values negated column, r) := by
  have chars : (membership values negated column).toList ++ r =
      (Literal.ofJson (.array values)).toList ++
        ((memberWord negated).toList ++ (column.toList ++ r)) := by
    simp [membership, memberWord]
  have blank : Delimits ((memberWord negated).toList ++ (column.toList ++ r)) := by
    cases negated <;> simp [memberWord, Delimits]
  have name : readUntil (fun c => c = ' ' || c = ')') (column.toList ++ r) = (column, r) := by
    apply readUntil_append
    · intro c member
      have other : c ≠ ' ' ∧ c ≠ ')' :=
        ⟨ne_of_mem_of_not_mem member unspaced, ne_of_mem_of_not_mem member unclosed⟩
      simp [other]
    · intro c first
      simpa using ends c first
  have value := readValue_append reads (v := .array values) known blank
  simp only [readMembership, chars, value, readMemberWord, name, bind, Option.bind]

theorem readClause_append {f : Filter} (readable : Readable S f)
    {inner : List Char → Option (List (Join × Filter) × List Char)}
    (inside : ∀ filters, f = .group filters → ∀ r, ∃ ls, chain ls = normal filters ∧
      inner ((conditionText filters).toList ++ ')' :: r) = some (ls, ')' :: r))
    {r : List Char} (ends : EndsClause r) :
    readClause number inner ((clauseText f).toList ++ r) = some (bare f, r) := by
  obtain ⟨leaf, legible, known⟩ := readable
  cases f with
  | compare column operator v =>
    obtain ⟨unspaced, plain, group, list⟩ := of_decide_eq_true legible
    have head (c : Char) (other : column.toList.head? ≠ some c) (visible : c ≠ ' ') :
        ((comparison column operator v).toList ++ r).head? ≠ some c := by
      cases chars : column.toList with
      | nil => simp [comparison, chars, visible.symm]
      | cons d rest =>
        rw [chars] at other
        simpa [comparison, chars] using other
    rw [clauseText_compare,
      readClause_comparison (head '(' group (by decide)) (head '[' list (by decide))]
    exact readComparison_append reads unspaced plain known ends.delimits
  | contains values negated column =>
    obtain ⟨unspaced, unclosed⟩ := of_decide_eq_true legible
    have read : readMembership number ((membership values negated column).toList ++ r) =
        some (.contains values negated column, r) :=
      readMembership_append reads unspaced unclosed known ends
    obtain ⟨rest, starts⟩ :
        ∃ rest, (membership values negated column).toList ++ r = '[' :: rest := by
      rw [membership, String.toList_append, String.toList_append, Literal.ofJson_array_toList]
      exact ⟨_, rfl⟩
    rw [clauseText_contains]
    rw [starts] at read ⊢
    exact read
  | group filters =>
    have chars : (clauseText (.group filters)).toList ++ r =
        '(' :: ((conditionText filters).toList ++ ')' :: r) := by
      simp [clauseText]
    obtain ⟨ls, same, read⟩ := inside filters rfl r
    rw [chars, readClause, read, bare, ← same]
    rfl
  | either => cases leaf

/-- Clauses are read back up to the end of their group, with fuel for the characters of their
text. -/
def ReadsLinks (S : Json.Number → Prop) (number : String → Option Json.Number)
    (fuel : Nat) : Prop :=
  ∀ j f ls, (∀ p ∈ (j, f) :: ls, Readable S p.2) →
    (linkedText ((j, f) :: ls)).toList.length < fuel → ∀ r, Closes r →
      readLinks number fuel j ((linkedText ((j, f) :: ls)).toList ++ r) =
        some (mapFilters bare ((j, f) :: ls), r)

omit reads in
theorem ReadsLinks.group {fuel : Nat} (h : ReadsLinks S number fuel) {filters : List Filter}
    (readable : Readable S (.group filters)) (bound : (conditionText filters).toList.length < fuel)
    {r : List Char} (closes : Closes r) :
    ∃ ls, chain ls = normal filters ∧
      readLinks number fuel .and ((conditionText filters).toList ++ r) = some (ls, r) := by
  have inside := readable_links readable.legible readable.known .and
  have some_link : links .and filters ≠ [] := by
    intro none
    have leaf := (links_eq_nil_iff filters .and).mp none
    exact absurd (readable.leaf.symm.trans leaf) (by decide)
  rw [conditionText_eq_linkedText (plainColumns_all filters readable.legible)] at bound ⊢
  rw [normal_eq_chain]
  obtain ⟨⟨j, f⟩, rest, same⟩ := List.exists_cons_of_ne_nil some_link
  rw [same] at inside bound ⊢
  have first : ∀ p ∈ (Join.and, f) :: rest, Readable S p.2 := by
    intro p member
    rcases List.mem_cons.mp member with rfl | member
    · exact inside (j, f) List.mem_cons_self
    · exact inside p (List.mem_cons_of_mem _ member)
  -- No join is written in front of the first filter, whatever markers stand there.
  exact ⟨mapFilters bare ((.and, f) :: rest), rfl, h .and f rest first bound r closes⟩

theorem readsLinks (fuel : Nat) : ReadsLinks S number fuel := by
  -- On the fuel: a group has fewer characters inside, and so have the clauses behind the first one.
  induction fuel with
  | zero => exact fun _ _ _ _ bound => absurd bound (Nat.not_lt_zero _)
  | succ fuel ih =>
    intro j f ls readable bound r closes
    rw [linkedText_toList] at bound ⊢
    rw [List.length_append] at bound
    have first : Readable S f := readable (j, f) List.mem_cons_self
    have inside : ∀ filters, f = .group filters → ∀ r, ∃ ls, chain ls = normal filters ∧
        readLinks number fuel .and ((conditionText filters).toList ++ ')' :: r) =
          some (ls, ')' :: r) := by
      rintro filters rfl r
      refine ih.group first ?_ (by simp [Closes])
      simp only [clauseText, String.toList_append, List.length_append] at bound
      have paren : ("(" : String).toList.length = 1 := rfl
      omega
    rw [readLinks, List.append_assoc]
    cases ls with
    | nil =>
      have ends : EndsClause r := fun c first => Or.inr (closes c first)
      have clause := readClause_append reads first inside ends
      simp only [mapFilters, List.map_nil, joinedText, String.toList_empty, List.nil_append, clause,
        bind, Option.bind, readJoin_of_closes closes]
      rfl
    | cons p rest =>
      obtain ⟨k, g⟩ := p
      rw [joinedText_cons] at bound ⊢
      rw [List.append_assoc]
      have ends : EndsClause (k.text.toList ++ ((linkedText ((k, g) :: rest)).toList ++ r)) := by
        cases k <;> simp [EndsClause, Join.text]
      have clause := readClause_append reads first inside ends
      have shorter : (linkedText ((k, g) :: rest)).toList.length < fuel := by
        have join : 0 < k.text.toList.length := by
          cases k <;> decide
        rw [List.length_append] at bound
        omega
      have later := ih k g rest (fun p member => readable p (List.mem_cons_of_mem _ member)) shorter
        r closes
      simp only [clause, bind, Option.bind, readJoin_text, later]
      rfl

/-- A condition without text has no filter with a leaf; any other is read as a group would be. -/
theorem read?_conditionText {fs : List Filter} (h : allLegible fs = true)
    (known : ∀ n ∈ allNumbers fs, S n) :
    read? number (conditionText fs) = some (normal fs) := by
  have empty := compile_eq_empty_iff_anyLeaf fs
  rw [compile_of_legible h] at empty
  cases leaf : anyLeaf fs with
  | false =>
    have none := (links_eq_nil_iff fs .and).mpr leaf
    rw [read?, if_pos (empty.mpr leaf), normal_eq_chain, none]
    rfl
  | true =>
    have some_text : conditionText fs ≠ "" := by
      intro none
      rw [empty.mp none] at leaf
      cases leaf
    have whole : Readable S (.group fs) := ⟨leaf, h, known⟩
    have ends : Closes [] := by simp [Closes]
    have reader := readsLinks reads ((conditionText fs).toList.length + 1)
    obtain ⟨ls, same, read⟩ := reader.group whole (Nat.lt_succ_self _) ends
    rw [List.append_nil] at read
    rw [read?, if_neg some_text, read, ← same]

end

/-- The text of a condition says which filters it was made of, up to groups without a leaf and
markers that ask for nothing: a reader finds their normal form, and filters share a text exactly
when they share that form. -/
theorem compile_unambiguous (S : Json.Number → Prop)
    (distinct : ∀ m n, S m → S n → m.text = n.text → m = n) :
    (∃ number : String → Option Json.Number, ∀ fs : List Filter, allLegible fs = true →
      (∀ n ∈ allNumbers fs, S n) → read? number (compile fs) = some (normal fs)) ∧
    (∀ fs gs : List Filter, allLegible fs = true → allLegible gs = true →
      (∀ n ∈ allNumbers fs, S n) → (∀ n ∈ allNumbers gs, S n) →
        (compile fs = compile gs ↔ normal fs = normal gs)) := by
  obtain ⟨number, reads⟩ := Literal.exists_number distinct
  have back : ∀ fs : List Filter, allLegible fs = true → (∀ n ∈ allNumbers fs, S n) →
      read? number (compile fs) = some (normal fs) := by
    intro fs h known
    rw [compile_of_legible h]
    exact read?_conditionText reads h known
  refine ⟨⟨number, back⟩, fun fs gs hf hg knownF knownG => ⟨fun same => ?_, fun same => ?_⟩⟩
  · have left := back fs hf knownF
    rw [same, back gs hg knownG] at left
    exact (Option.some.inj left).symm
  · rw [compile_of_legible hf, compile_of_legible hg,
      ← conditionText_normal (plainColumns_all fs hf),
      ← conditionText_normal (plainColumns_all gs hg), same]

/-- A string that reads like the end of a group, and a comparison by an operator that reads like a
join. -/
def sampleNested : List Filter :=
  [.either, .group [.either], .compare "a" "=" (.string "1) OR b"), .either, .group [], .either,
    .group [.contains [Json.ofNat 1] true "tags", .either, .group [.compare "" "OR" .null]],
    .either]

def sampleNormal : List Filter :=
  [.compare "a" "=" (.string "1) OR b"), .either,
    .group [.contains [Json.ofNat 1] true "tags", .either, .group [.compare "" "OR" .null]]]

def sampleFlat : List Filter :=
  [.compare "a" "=" (.string "1) OR b"), .either, .contains [Json.ofNat 1] true "tags", .either,
    .group [.compare "" "OR" .null]]

theorem sampleNested_reads_back :
    (∃ number, read? number (compile sampleNested) = some sampleNormal) ∧
      compile sampleNested = compile sampleNormal ∧ compile sampleNested ≠ compile sampleFlat := by
  have all := compile_unambiguous (fun _ => True) fun _ _ _ _ => Json.Number.text_inj
  have known : ∀ fs : List Filter, ∀ n ∈ allNumbers fs, True := fun _ _ _ => trivial
  have form : normal sampleNested = sampleNormal := rfl
  obtain ⟨⟨number, back⟩, apart⟩ := all
  refine ⟨⟨number, ?_⟩, ?_, ?_⟩
  · rw [back sampleNested (by decide) (known _), form]
  · exact (apart sampleNested sampleNormal (by decide) (by decide) (known _)
      (known _)).mpr rfl
  · intro same
    have forms := (apart sampleNested sampleFlat (by decide) (by decide) (known _)
      (known _)).mp same
    rw [form] at forms
    cases forms

end RecordClient.Filter
