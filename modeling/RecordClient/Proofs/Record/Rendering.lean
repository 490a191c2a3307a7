import RecordClient.Query.Builder
/-!
# Rendered ids between their brackets

`readId?` reads an id up to its closing bracket. Rendering puts a backslash before a closing
bracket of the id, but none before a backslash of the id: `rendered_reads_back_iff` says which ids
a statement is read with as they were meant, and which at least do not run into the statement.
-/
namespace RecordClient

namespace RecordId

/-! ### Reading an id between brackets -/

/-- Reads an id up to its closing bracket, with a backslash before a character that stands for
itself, and gives what stands behind the bracket. -/
def readId? : List Char → Option (List Char × List Char)
  | [] => none
  | ['\\'] => none
  | '\\' :: c :: rest => (readId? rest).map fun read => (c :: read.1, read.2)
  | c :: rest =>
    if c = '⟩' then some ([], rest) else (readId? rest).map fun read => (c :: read.1, read.2)

theorem readId?_closing (rest : List Char) : readId? ('⟩' :: rest) = some ([], rest) := rfl

theorem readId?_escaped (c : Char) (rest : List Char) :
    readId? ('\\' :: c :: rest) = (readId? rest).map fun read => (c :: read.1, read.2) := rfl

theorem readId?_cons {c : Char} (backslash : c ≠ '\\') (closing : c ≠ '⟩') (rest : List Char) :
    readId? (c :: rest) = (readId? rest).map fun read => (c :: read.1, read.2) := by
  rw [readId?, if_neg closing]
  · exact fun same => absurd same backslash
  · exact fun _ _ same => absurd same backslash

/-- The closing bracket is not part of what stands behind it. -/
theorem length_lt_of_readId? {cs id behind : List Char} (h : readId? cs = some (id, behind)) :
    behind.length < cs.length := by
  fun_induction readId? cs generalizing id with
  | case1 => cases h
  | case2 => cases h
  | case3 c rest ih =>
    obtain ⟨read, found, same⟩ := Option.map_eq_some_iff.mp h
    cases same
    have shorter := ih found
    simp only [List.length_cons]
    omega
  | case4 rest =>
    cases h
    exact Nat.lt_succ_self _
  | case5 c rest _ _ _ ih =>
    obtain ⟨read, found, same⟩ := Option.map_eq_some_iff.mp h
    cases same
    have shorter := ih found
    simp only [List.length_cons]
    omega

/-! ### Ids as they are rendered -/

/-- The characters of an id between its brackets. -/
def bracketed (id : List Char) : List Char := id.flatMap bracketChar

theorem bracketed_closing (id : List Char) : bracketed ('⟩' :: id) = '\\' :: '⟩' :: bracketed id :=
  rfl

theorem bracketed_cons {c : Char} (h : c ≠ '⟩') (id : List Char) :
    bracketed (c :: id) = c :: bracketed id := by
  rw [bracketed, List.flatMap_cons, bracketChar, if_neg h]
  rfl

/-- What an id is read as between its brackets. A backslash of the id is taken for the mark of the
character behind it; if there is none, or if that is a closing bracket, which has a mark of its own,
then the reader leaves the brackets too late or too early. -/
def readAs? : List Char → Option (List Char)
  | [] => some []
  | ['\\'] => none
  | '\\' :: c :: rest => if c = '⟩' then none else (readAs? rest).map (c :: ·)
  | c :: rest => (readAs? rest).map (c :: ·)

theorem ne_backslash {c : Char} {rest : List Char} (single : c = '\\' → rest = [] → False)
    (pair : ∀ d more, c = '\\' → rest = d :: more → False) : c ≠ '\\' := by
  intro same
  cases rest with
  | nil => exact single same rfl
  | cons d more => exact pair d more same rfl

theorem length_le_of_readAs? {id read : List Char} (h : readAs? id = some read) :
    read.length ≤ id.length := by
  fun_induction readAs? id generalizing read with
  | case1 =>
    cases h
    exact Nat.le_refl _
  | case2 => cases h
  | case3 => cases h
  | case4 c rest _ ih =>
    obtain ⟨later, found, rfl⟩ := Option.map_eq_some_iff.mp h
    have short := ih found
    simp only [List.length_cons]
    omega
  | case5 c rest _ _ ih =>
    obtain ⟨later, found, rfl⟩ := Option.map_eq_some_iff.mp h
    exact Nat.succ_le_succ (ih found)

theorem readAs?_eq_self_iff (id : List Char) : readAs? id = some id ↔ '\\' ∉ id := by
  fun_induction readAs? id with
  | case1 => simp
  | case2 => simp
  | case3 => simp
  | case4 c rest =>
    -- One character is missing for good.
    refine iff_of_false (fun same => ?_) (by simp)
    obtain ⟨later, found, whole⟩ := Option.map_eq_some_iff.mp same
    have short := length_le_of_readAs? found
    have long := congrArg List.length whole
    simp only [List.length_cons] at long
    omega
  | case5 c rest single pair ih =>
    have other := ne_backslash single pair
    simp [ih, other.symm]

/-- The reader stops at the closing bracket of a rendered id exactly with what `readAs?` says. -/
theorem readId?_bracketed_iff (id rest read : List Char) :
    readId? (bracketed id ++ '⟩' :: rest) = some (read, rest) ↔ readAs? id = some read := by
  have goes_on {c : Char} {id : List Char}
      (ih : ∀ read, readId? (bracketed id ++ '⟩' :: rest) = some (read, rest) ↔
        readAs? id = some read) (read : List Char) :
      (readId? (bracketed id ++ '⟩' :: rest)).map (fun read => (c :: read.1, read.2)) =
          some (read, rest) ↔ (readAs? id).map (c :: ·) = some read := by
    simp only [Option.map_eq_some_iff, Prod.exists, Prod.mk.injEq, ← ih]
    constructor
    · rintro ⟨inner, behind, found, rfl, rfl⟩
      exact ⟨inner, found, rfl⟩
    · rintro ⟨inner, found, rfl⟩
      exact ⟨inner, rest, found, rfl, rfl⟩
  -- On the id as `readAs?` goes through it, a backslash together with what stands behind it.
  fun_induction readAs? id generalizing read with
  | case1 => simp [bracketed, readId?_closing]
  | case2 =>
    -- The closing bracket is taken for a character of the id.
    refine iff_of_false (fun same => ?_) (by simp)
    obtain ⟨⟨inner, behind⟩, found, whole⟩ := Option.map_eq_some_iff.mp same
    cases whole
    exact absurd (length_lt_of_readId? found) (Nat.lt_irrefl _)
  | case3 more =>
    -- The mark of the bracket is taken for a character, and the bracket for the closing one.
    refine iff_of_false (fun same => ?_) (by simp)
    rw [bracketed_cons (by decide), bracketed_closing, List.cons_append, List.cons_append,
      List.cons_append, readId?_escaped, readId?_closing] at same
    have behind := congrArg List.length (Prod.mk.inj (Option.some.inj same)).2
    simp only [List.length_append, List.length_cons] at behind
    omega
  | case4 c more other ih =>
    rw [bracketed_cons (by decide), bracketed_cons other, List.cons_append, List.cons_append,
      readId?_escaped]
    exact goes_on ih read
  | case5 c more single pair ih =>
    have backslash := ne_backslash single pair
    by_cases closing : c = '⟩'
    · rw [closing, bracketed_closing, List.cons_append, List.cons_append, readId?_escaped]
      exact goes_on ih read
    · rw [bracketed_cons closing, List.cons_append, readId?_cons backslash closing]
      exact goes_on ih read

/-! ### Texts with a rendered id -/

/-- The part of a rendering in front of the id. -/
def tablePart (r : RecordId) : String := r.table.elim "" (· ++ ":")

theorem rendered_of_special {r : RecordId} {id : String} (named : r.id = some id)
    (special : isPlain id = false) :
    r.rendered = r.tablePart ++ "⟨" ++ String.ofList (bracketed id.toList) ++ "⟩" := by
  obtain ⟨table, _⟩ := r
  cases named
  have shown : renderedId id = "⟨" ++ String.ofList (bracketed id.toList) ++ "⟩" := by
    rw [renderedId, special]
    rfl
  cases table with
  | none => simp [rendered, tablePart, shown]
  | some table =>
    show table ++ ":" ++ renderedId id = table ++ ":" ++ "⟨" ++ _ ++ "⟩"
    rw [shown]
    simp only [String.append_assoc]

/-- Behind `front` the text goes on with an opening bracket, from which an id is read up to a
closing bracket with `back` behind it. -/
def Encloses (text front id back : String) : Prop :=
  ∃ cs, text.toList = front.toList ++ '⟨' :: cs ∧ readId? cs = some (id.toList, back.toList)

theorem encloses_iff {r : RecordId} {id : String} (named : r.id = some id)
    (special : isPlain id = false) (front back read : String) :
    Encloses (front ++ r.rendered ++ back) (front ++ r.tablePart) read back ↔
      readAs? id.toList = some read.toList := by
  have chars : (front ++ r.rendered ++ back).toList =
      (front ++ r.tablePart).toList ++ '⟨' :: (bracketed id.toList ++ '⟩' :: back.toList) := by
    rw [rendered_of_special named special]
    simp
  rw [← readId?_bracketed_iff id.toList back.toList]
  constructor
  · rintro ⟨cs, same, found⟩
    rw [chars] at same
    have behind := (List.cons.inj (List.append_cancel_left same)).2
    rw [behind]
    exact found
  · intro found
    exact ⟨_, chars, found⟩

/-- Wherever a record with a special id stands in a text, its brackets are read back to the id
exactly when there is no backslash in the id, and they close at their own end exactly when `readAs?`
reads the id. That holds of its rendering alone and of the statements that write, replace or link
the record. -/
theorem rendered_reads_back_iff {r : RecordId} {id : String} (named : r.id = some id)
    (special : isPlain id = false) :
    (∀ front back, (Encloses (front ++ r.rendered ++ back) (front ++ r.tablePart) id back ↔
        '\\' ∉ id.toList) ∧
      ((∃ read, Encloses (front ++ r.rendered ++ back) (front ++ r.tablePart) read back) ↔
        (readAs? id.toList).isSome)) ∧
    (Encloses r.rendered r.tablePart id "" ↔ '\\' ∉ id.toList) ∧
    (∀ data, Encloses (ContentWrite.create.text r data) ("CREATE " ++ r.tablePart) id
      (" CONTENT " ++ Literal.ofRecord data) ↔ '\\' ∉ id.toList) ∧
    (∀ data, Encloses (ContentWrite.update.text r data) ("UPDATE " ++ r.tablePart) id
      (" CONTENT " ++ Literal.ofRecord data) ↔ '\\' ∉ id.toList) ∧
    (∀ verb target data, Encloses (Link.text ⟨r, verb, target, data⟩) ("RELATE " ++ r.tablePart) id
      ("->" ++ verb ++ "->" ++ target.rendered ++ Query.setText data) ↔ '\\' ∉ id.toList) ∧
    (∀ source verb data, Encloses (Link.text ⟨source, verb, r, data⟩)
      ("RELATE " ++ source.rendered ++ "->" ++ verb ++ "->" ++ r.tablePart) id
      (Query.setText data) ↔ '\\' ∉ id.toList) := by
  have back_iff (front back : String) :
      Encloses (front ++ r.rendered ++ back) (front ++ r.tablePart) id back ↔ '\\' ∉ id.toList :=
    (encloses_iff named special front back id).trans (readAs?_eq_self_iff id.toList)
  refine ⟨fun front back => ⟨back_iff front back, ?_⟩, ?_, ?_, ?_, ?_, ?_⟩
  · rw [Option.isSome_iff_exists]
    constructor
    · rintro ⟨read, found⟩
      exact ⟨read.toList, (encloses_iff named special front back read).mp found⟩
    · rintro ⟨read, found⟩
      refine ⟨String.ofList read, (encloses_iff named special front back _).mpr ?_⟩
      rw [found, String.toList_ofList]
  · simpa using back_iff "" ""
  · intro data
    simpa [ContentWrite.text, String.append_assoc] using
      back_iff "CREATE " (" CONTENT " ++ Literal.ofRecord data)
  · intro data
    simpa [ContentWrite.text, String.append_assoc] using
      back_iff "UPDATE " (" CONTENT " ++ Literal.ofRecord data)
  · intro verb target data
    simpa [Link.text, String.append_assoc] using
      back_iff "RELATE " ("->" ++ verb ++ "->" ++ target.rendered ++ Query.setText data)
  · intro source verb data
    simpa [Link.text, String.append_assoc] using
      back_iff ("RELATE " ++ source.rendered ++ "->" ++ verb ++ "->") (Query.setText data)

def sampleBracket : RecordId := ⟨some "t", some "a⟩ b"⟩

theorem sampleBracket_reads_back :
    isPlain "a⟩ b" = false ∧ '\\' ∉ "a⟩ b".toList ∧
      ContentWrite.create.text sampleBracket ⟨[]⟩ = "CREATE t:⟨a\\⟩ b⟩ CONTENT \x7b\x7d" ∧
      Encloses (ContentWrite.create.text sampleBracket ⟨[]⟩) "CREATE t:" "a⟩ b"
        " CONTENT \x7b\x7d" := by
  have special : isPlain "a⟩ b" = false := by decide +kernel
  have free : '\\' ∉ "a⟩ b".toList := by decide
  have all := rendered_reads_back_iff (r := sampleBracket) rfl special
  exact ⟨special, free, by decide +kernel, (all.2.2.1 ⟨[]⟩).mpr free⟩

/-- An id with a backslash before a closing bracket: the brackets close in the middle of it, and
its rest reads as a statement. -/
def sampleEarly : RecordId := ⟨some "t", some "\\⟩; DELETE t; --"⟩

/-- An id with a backslash at its end: what follows the record is taken for a part of its id. -/
def sampleOpen : RecordId := ⟨some "t", some "a\\"⟩

theorem backslash_leaves_brackets :
    Link.text ⟨sampleEarly, "v", ⟨some "t", some "1"⟩, ⟨[]⟩⟩ =
        "RELATE t:⟨\\\\⟩; DELETE t; --⟩->v->t:1" ∧
      readId? "\\\\⟩; DELETE t; --⟩->v->t:1".toList =
        some (['\\'], "; DELETE t; --⟩->v->t:1".toList) ∧
      sampleOpen.rendered = "t:⟨a\\⟩" ∧ readId? "a\\⟩".toList = none := by
  decide +kernel

end RecordId

end RecordClient
