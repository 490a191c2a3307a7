import Mathlib.Data.List.DropRight
import RecordClient.Text.Blank
/-!
# Blanks and words

What the two ways of cutting a line keep of it. The words of a line are those that it spaces out
(`words_eq_iff`), and stripping a text takes away the characters of a kind at both ends and nothing
else (`stripped_eq_iff`).
-/
namespace RecordClient.Text

def Blanks (cs : List Char) : Prop := ∀ c ∈ cs, isBlank c = true

/-- A text that can stand as a word of its own. -/
def Solid (w : List Char) : Prop := w ≠ [] ∧ ∀ c ∈ w, isBlank c = false

/-- Neither end of a text has a property. -/
def Bare (p : Char → Bool) (text : List Char) : Prop :=
  (∀ c ∈ text.head?, p c = false) ∧ ∀ c ∈ text.getLast?, p c = false

/-- Neither end of a text is a blank. -/
def Flush (text : List Char) : Prop := Bare isBlank text

/-- A text made of words, each behind the one before it and some blanks. There can be more blanks
behind the last word. -/
inductive Spaced : List (List Char) → List Char → Prop
  | nil : Spaced [] []
  | cons {w gap text : List Char} {ws : List (List Char)} (blank : Blanks gap)
      (apart : ws ≠ [] → gap ≠ []) (later : Spaced ws text) : Spaced (w :: ws) (w ++ gap ++ text)

/-- A line of words with blanks between and around them. -/
def Spells (ws : List (List Char)) (line : List Char) : Prop :=
  ∃ before text, Blanks before ∧ Spaced ws text ∧ line = before ++ text

/-! ### Words -/

/-- A line is cut at each of its blanks. -/
theorem words_append_blank {c : Char} (blank : isBlank c = true) (x y : List Char) :
    words (x ++ c :: y) = words x ++ words y := by
  simp only [words, List.splitOnP_append_cons x y blank, List.filter_append]

theorem words_blanks_append {gap : List Char} (blank : Blanks gap) (text : List Char) :
    words (gap ++ text) = words text := by
  induction gap with
  | nil => rfl
  | cons c rest ih =>
    obtain ⟨here, later⟩ := List.forall_mem_cons.mp blank
    exact (words_append_blank here [] (rest ++ text)).trans (ih later)

theorem words_append_blanks {gap : List Char} (blank : Blanks gap) (text : List Char) :
    words (text ++ gap) = words text := by
  cases gap with
  | nil => rw [List.append_nil]
  | cons c rest =>
    obtain ⟨here, later⟩ := List.forall_mem_cons.mp blank
    have none : words rest = [] := by rw [← rest.append_nil, words_blanks_append later]; rfl
    rw [words_append_blank here, none, List.append_nil]

theorem words_of_solid {w : List Char} (solid : Solid w) : words w = [w] := by
  rw [words, List.splitOnP_eq_singleton solid.2]
  simp [solid.1]

theorem words_of_spaced {ws : List (List Char)} {text : List Char} (spaced : Spaced ws text)
    (solid : ∀ w ∈ ws, Solid w) : words text = ws := by
  induction spaced with
  | nil => rfl
  | @cons w gap text ws blank apart later ih =>
    obtain ⟨own, others⟩ := List.forall_mem_cons.mp solid
    cases gap with
    | nil =>
      have last : ws = [] := not_imp_comm.mp apart (fun some_gap => some_gap rfl)
      subst last
      cases later
      simpa using words_of_solid own
    | cons c gap =>
      obtain ⟨here, behind⟩ := List.forall_mem_cons.mp blank
      rw [List.append_assoc, List.cons_append, words_append_blank here, words_of_solid own,
        words_blanks_append behind, ih others]
      rfl

/-- Every line spells words: a character that is not blank belongs to the word behind it, unless a
blank or the end of the line comes first. -/
theorem exists_spells (line : List Char) : ∃ ws, (∀ w ∈ ws, Solid w) ∧ Spells ws line := by
  induction line with
  | nil => exact ⟨[], by simp, [], [], by simp [Blanks], .nil, rfl⟩
  | cons c rest ih =>
    obtain ⟨ws, solid, before, text, blank, spaced, rfl⟩ := ih
    by_cases here : isBlank c = true
    · exact ⟨ws, solid, c :: before, text, List.forall_mem_cons.mpr ⟨here, blank⟩, spaced, rfl⟩
    have visible : isBlank c = false := by simpa using here
    -- The word of this character ends here exactly when blanks or nothing follow.
    have alone (apart : ws ≠ [] → before ≠ []) :
        ∃ ws, (∀ w ∈ ws, Solid w) ∧ Spells ws (c :: (before ++ text)) :=
      ⟨[c] :: ws, List.forall_mem_cons.mpr ⟨⟨by simp, by simpa using visible⟩, solid⟩, [],
        [c] ++ before ++ text, by simp [Blanks], .cons blank apart spaced, by simp⟩
    cases before with
    | cons b before => exact alone fun _ => List.cons_ne_nil b before
    | nil =>
      cases spaced with
      | nil => exact alone fun some_word => absurd rfl some_word
      | @cons w gap text ws blank apart later =>
        obtain ⟨⟨some_text, own⟩, others⟩ := List.forall_mem_cons.mp solid
        exact ⟨(c :: w) :: ws,
          List.forall_mem_cons.mpr ⟨⟨by simp, List.forall_mem_cons.mpr ⟨visible, own⟩⟩, others⟩,
          [], (c :: w) ++ gap ++ text, by simp [Blanks], .cons blank apart later, by simp⟩

/-- The words of a line are the one list of solid words that it spells. -/
theorem words_eq_iff {line : List Char} {ws : List (List Char)} :
    words line = ws ↔ (∀ w ∈ ws, Solid w) ∧ Spells ws line := by
  have read {ws : List (List Char)} (solid : ∀ w ∈ ws, Solid w) (spelled : Spells ws line) :
      words line = ws := by
    obtain ⟨before, text, blank, spaced, rfl⟩ := spelled
    rw [words_blanks_append blank, words_of_spaced spaced solid]
  constructor
  · rintro rfl
    obtain ⟨ws, solid, spelled⟩ := exists_spells line
    rw [read solid spelled]
    exact ⟨solid, spelled⟩
  · rintro ⟨solid, spelled⟩
    exact read solid spelled

/-! ### Stripping -/

section

variable {p : Char → Bool}

theorem stripped_eq_rdropWhile (p : Char → Bool) (cs : List Char) :
    stripped p cs = (cs.dropWhile p).rdropWhile p := rfl

/-- Stripping the end leaves the first character without the property. -/
theorem head?_stripped (p : Char → Bool) (cs : List Char) :
    (stripped p cs).head? = (cs.dropWhile p).head? := by
  have first := List.head?_dropWhile_not p cs
  obtain ⟨rest, split⟩ := List.rdropWhile_prefix p (cs.dropWhile p)
  rw [← stripped_eq_rdropWhile] at split
  cases kept : stripped p cs with
  | cons c more =>
    rw [← split, kept]
    rfl
  | nil =>
    rw [stripped_eq_rdropWhile, List.rdropWhile_eq_nil_iff] at kept
    cases start : cs.dropWhile p with
    | nil => rfl
    | cons c more =>
      rw [start] at first kept
      cases first.symm.trans (kept c List.mem_cons_self)

theorem bare_stripped (p : Char → Bool) (cs : List Char) : Bare p (stripped p cs) := by
  constructor
  · intro c first
    have visible := List.head?_dropWhile_not p cs
    rw [head?_stripped] at first
    rw [Option.mem_def.mp first] at visible
    exact visible
  · intro c last
    obtain ⟨some_text, rfl⟩ := List.mem_getLast?_eq_getLast last
    exact Bool.eq_false_iff.mpr (List.rdropWhile_last_not p (cs.dropWhile p) some_text)

theorem stripped_of_bare {text before after : List Char} (bare : Bare p text)
    (ahead : ∀ c ∈ before, p c = true) (behind : ∀ c ∈ after, p c = true) :
    stripped p (before ++ text ++ after) = text := by
  rw [stripped_eq_rdropWhile, List.append_assoc, List.dropWhile_append_of_pos ahead]
  cases text with
  | nil =>
    rw [List.nil_append, List.dropWhile_eq_nil_iff.mpr behind]
    rfl
  | cons c rest =>
    have visible : p c = false := bare.1 c rfl
    rw [List.cons_append, List.dropWhile_cons_of_neg (by simp [visible]), ← List.cons_append,
      List.rdropWhile, List.reverse_append,
      List.dropWhile_append_of_pos fun b member => behind b (List.mem_reverse.mp member)]
    refine List.rdropWhile_eq_self_iff.mpr fun some_text => ?_
    simpa using bare.2 _ (List.getLast?_eq_some_getLast some_text)

/-- A stripped text is the part of it that begins and ends without the property and has only
characters with the property around it. -/
theorem stripped_eq_iff {cs text : List Char} :
    stripped p cs = text ↔ Bare p text ∧ ∃ before after, (∀ c ∈ before, p c = true) ∧
      (∀ c ∈ after, p c = true) ∧ cs = before ++ text ++ after := by
  constructor
  · rintro rfl
    refine ⟨bare_stripped p cs, cs.takeWhile p, (cs.dropWhile p).rtakeWhile p,
      fun c => List.mem_takeWhile_imp, fun c => List.mem_rtakeWhile_imp, ?_⟩
    rw [stripped_eq_rdropWhile, List.append_assoc, List.rdropWhile_append_rtakeWhile,
      List.takeWhile_append_dropWhile]
  · rintro ⟨bare, before, after, ahead, behind, rfl⟩
    exact stripped_of_bare bare ahead behind

end

/-! ### Trimming -/

theorem head?_trimmed (cs : List Char) : (trimmed cs).head? = (cs.dropWhile isBlank).head? :=
  head?_stripped isBlank cs

/-- A trimmed line is the part of it that begins and ends without a blank and has only blanks
around it. -/
theorem trimmed_eq_iff {cs text : List Char} :
    trimmed cs = text ↔ Flush text ∧
      ∃ before after, Blanks before ∧ Blanks after ∧ cs = before ++ text ++ after :=
  stripped_eq_iff

theorem words_trimmed (cs : List Char) : words (trimmed cs) = words cs := by
  obtain ⟨-, before, after, ahead, behind, same⟩ := trimmed_eq_iff.mp (Eq.refl (trimmed cs))
  conv_rhs => rw [same]
  rw [words_append_blanks behind, words_blanks_append ahead]

end RecordClient.Text
