import RecordClient.Proofs.Text.Words
import RecordClient.Shell.Command
/-!
# Lines that are commands

Which lines parse to which command. A command is typed as its words, with any blanks between and
around them, or as its query text with blanks around it; from such a line it is read back, and
from no other, except that `.exit` and `.ping` pass over further words (`line_parses_back`).
-/
namespace RecordClient.Shell.Command

open Text (Blanks Flush Solid Spells Spaced isBlank trimmed words)

/-- The words that a command is typed as. Query text is typed as it is, blanks included. -/
def spelling : Command → List String
  | exit => [".exit"]
  | ping => [".ping"]
  | use ns database => [".use", ns, database]
  | get target => [".get", target]
  | delete target => [".delete", target]
  | drop table => [".drop", table]
  | query text => [text]

def WellFormed : Command → Prop
  | exit | ping => True
  | use ns database => Solid ns.toList ∧ Solid database.toList
  | get word | delete word | drop word => Solid word.toList
  | query text => text ≠ "" ∧ Flush text.toList ∧ text.toList.head? ≠ some '.'

/-- A line of the words of a command, and of words that it passes over. -/
def TypedAs (c : Command) (ignored : List String) (line : String) : Prop :=
  Spells ((c.spelling ++ ignored).map String.toList) line.toList

/-- Only some commands pass over the words behind their own. -/
def Ignores (c : Command) (ignored : List String) : Prop :=
  (∀ w ∈ ignored, Solid w.toList) ∧ (ignored = [] ∨ c = exit ∨ c = ping)

/-! ### Words -/

theorem onlyArgument_map_ok {name sample : String} {arguments : List String}
    {f : String → Command} {c : Command}
    (h : (onlyArgument name sample arguments).map f = .ok c) :
    ∃ argument, arguments = [argument] ∧ c = f argument := by
  unfold onlyArgument at h
  split at h
  · next argument =>
    cases h
    exact ⟨argument, rfl, rfl⟩
  · cases h

/-- Words with a dot in front are the spelling of their command, and the words that it passes
over. -/
theorem spelling_of_ofWords {name : String} {arguments : List String} {c : Command}
    (h : ofWords name arguments = .ok c) :
    (∀ text, c ≠ query text) ∧ ∃ ignored, name :: arguments = c.spelling ++ ignored ∧
      (ignored = [] ∨ c = exit ∨ c = ping) := by
  unfold ofWords at h
  split at h
  · cases h
    exact ⟨by simp, arguments, rfl, Or.inr (Or.inl rfl)⟩
  · cases h
    exact ⟨by simp, arguments, rfl, Or.inr (Or.inr rfl)⟩
  · split at h
    · cases h
      exact ⟨by simp, [], rfl, Or.inl rfl⟩
    · cases h
  · obtain ⟨target, rfl, rfl⟩ := onlyArgument_map_ok h
    exact ⟨by simp, [], rfl, Or.inl rfl⟩
  · obtain ⟨target, rfl, rfl⟩ := onlyArgument_map_ok h
    exact ⟨by simp, [], rfl, Or.inl rfl⟩
  · obtain ⟨table, rfl, rfl⟩ := onlyArgument_map_ok h
    exact ⟨by simp, [], rfl, Or.inl rfl⟩
  · cases h

theorem ofWords_spelling {name : String} {arguments ignored : List String} {c : Command}
    (other : ∀ text, c ≠ query text) (spelled : name :: arguments = c.spelling ++ ignored)
    (passed : ignored = [] ∨ c = exit ∨ c = ping) : ofWords name arguments = .ok c := by
  cases c with
  | query text => exact absurd rfl (other text)
  | exit | ping =>
    cases spelled
    rfl
  | use | get | delete | drop =>
    obtain rfl : ignored = [] := by simpa using passed
    cases spelled
    rfl

theorem solid_spelling {c : Command} (other : ∀ text, c ≠ query text) :
    (∀ w ∈ c.spelling, Solid w.toList) ↔ c.WellFormed := by
  cases c with
  | query text => exact absurd rfl (other text)
  | _ => simp [spelling, WellFormed, Solid, isBlank]

theorem spelling_starts_with_dot {c : Command} (other : ∀ text, c ≠ query text) :
    ∃ w ws, c.spelling.map String.toList = ('.' :: w) :: ws := by
  cases c with
  | query text => exact absurd rfl (other text)
  | _ => exact ⟨_, _, rfl⟩

/-! ### Lines -/

theorem typedAs_query_iff {text line : String} :
    (query text).TypedAs [] line ↔
      ∃ before after, Blanks before ∧ Blanks after ∧
        line.toList = before ++ text.toList ++ after := by
  constructor
  · rintro ⟨before, body, ahead, spaced, same⟩
    cases spaced with
    | @cons _ gap _ _ behind _ later =>
      cases later
      exact ⟨before, gap, ahead, behind, by simp [same]⟩
  · rintro ⟨before, after, ahead, behind, same⟩
    refine ⟨before, text.toList ++ after ++ [], ahead, .cons behind (by simp) .nil, ?_⟩
    simp [same]

theorem trimmed_of_typedAs_query {text line : String} (formed : (query text).WellFormed)
    (typed : (query text).TypedAs [] line) : trimmed line.toList = text.toList := by
  obtain ⟨before, after, ahead, behind, same⟩ := typedAs_query_iff.mp typed
  exact Text.trimmed_eq_iff.mpr ⟨formed.2.1, before, after, ahead, behind, same⟩

theorem dot_of_typedAs {c : Command} {ignored : List String} {line : String}
    (other : ∀ text, c ≠ query text) (typed : c.TypedAs ignored line) :
    ∃ rest, trimmed line.toList = '.' :: rest := by
  obtain ⟨before, text, ahead, spaced, same⟩ := typed
  obtain ⟨w, ws, first⟩ := spelling_starts_with_dot other
  rw [List.map_append, first] at spaced
  have start : (trimmed line.toList).head? = some '.' := by
    cases spaced
    rw [Text.head?_trimmed, same, List.dropWhile_append_of_pos ahead]
    rfl
  exact List.head?_eq_some_iff.mp start

theorem ofLine_of_dot {line : String} {rest : List Char}
    (start : trimmed line.toList = '.' :: rest) :
    ofLine line =
      match (words line.toList).map String.ofList with
      | [] => .error .empty
      | name :: arguments => ofWords name arguments := by
  have same : words line.toList = words ('.' :: rest) := by rw [← start, Text.words_trimmed]
  rw [ofLine, start, same]
  rfl

theorem ofLine_of_text {line : String} {text : List Char} (kept : trimmed line.toList = text)
    (some_text : text ≠ []) (undotted : text.head? ≠ some '.') :
    ofLine line = .ok (query (String.ofList text)) := by
  rw [ofLine, kept]
  split
  · exact absurd rfl some_text
  · exact absurd rfl undotted
  · rfl

theorem ofLine_of_typedAs {c : Command} {ignored : List String} {line : String}
    (formed : c.WellFormed) (ignores : c.Ignores ignored) (typed : c.TypedAs ignored line) :
    ofLine line = .ok c := by
  obtain ⟨solid, passed⟩ := ignores
  by_cases isText : ∃ text, c = query text
  · obtain ⟨text, rfl⟩ := isText
    obtain rfl : ignored = [] := by simpa using passed
    have kept := trimmed_of_typedAs_query formed typed
    have some_text : text.toList ≠ [] := by simpa using formed.1
    rw [ofLine_of_text kept some_text formed.2.2, String.ofList_toList]
  · have other : ∀ text, c ≠ query text := fun text same => isText ⟨text, same⟩
    obtain ⟨rest, start⟩ := dot_of_typedAs other typed
    have own := (solid_spelling other).mpr formed
    have read : words line.toList = (c.spelling ++ ignored).map String.toList := by
      refine Text.words_eq_iff.mpr ⟨?_, typed⟩
      simp only [List.forall_mem_map, List.forall_mem_append]
      exact ⟨own, solid⟩
    have named : (words line.toList).map String.ofList = c.spelling ++ ignored := by
      simp [read, Function.comp_def]
    obtain ⟨name, arguments, spelled⟩ :
        ∃ name arguments, c.spelling ++ ignored = name :: arguments :=
      List.exists_cons_of_ne_nil (by cases c <;> simp [spelling])
    rw [ofLine_of_dot start, named, spelled]
    exact ofWords_spelling other spelled.symm passed

theorem typedAs_of_ofLine {line : String} {c : Command} (h : ofLine line = .ok c) :
    c.WellFormed ∧ ∃ ignored, c.Ignores ignored ∧ c.TypedAs ignored line := by
  cases kept : trimmed line.toList with
  | nil =>
    rw [ofLine, kept] at h
    cases h
  | cons first rest =>
    by_cases dotted : first = '.'
    · subst dotted
      rw [ofLine_of_dot kept] at h
      split at h
      · cases h
      next name arguments named =>
      have read : words line.toList = (name :: arguments).map String.toList := by
        rw [← named]
        simp [Function.comp_def]
      obtain ⟨solid, spelled⟩ := Text.words_eq_iff.mp read
      obtain ⟨other, ignored, same, passed⟩ := spelling_of_ofWords h
      rw [same] at solid spelled
      simp only [List.forall_mem_map, List.forall_mem_append] at solid
      exact ⟨(solid_spelling other).mp solid.1, ignored, ⟨solid.2, passed⟩, spelled⟩
    · have undotted : (first :: rest).head? ≠ some '.' := by simpa using dotted
      rw [ofLine_of_text kept (List.cons_ne_nil first rest) undotted] at h
      cases h
      obtain ⟨flush, around⟩ := Text.trimmed_eq_iff.mp kept
      refine ⟨⟨by simp, by simpa using flush, by simpa using dotted⟩, [], ⟨by simp, Or.inl rfl⟩,
        typedAs_query_iff.mpr (by simpa using around)⟩

theorem query_of_ofLine {line text : String} (h : ofLine line = .ok (query text)) :
    (query text).WellFormed ∧ (query text).TypedAs [] line := by
  obtain ⟨formed, ignored, ⟨-, passed⟩, typed⟩ := typedAs_of_ofLine h
  obtain rfl : ignored = [] := by simpa using passed
  exact ⟨formed, typed⟩

theorem not_query_of_dot {line : String}
    (dot : (line.toList.dropWhile isBlank).head? = some '.') (text : String) :
    ofLine line ≠ .ok (query text) := by
  intro parsed
  obtain ⟨formed, typed⟩ := query_of_ofLine parsed
  rw [← Text.head?_trimmed, trimmed_of_typedAs_query formed typed] at dot
  exact formed.2.2 dot

/-- A line parses to a command exactly when the command can be typed and the line has its words,
with blanks between and around them; behind `.exit` and `.ping` there can be more words. What
parses to query text is that text with blanks around it, and a line that begins with a dot, behind
any blanks, never does. -/
theorem line_parses_back :
    (∀ (line : String) (c : Command), ofLine line = .ok c ↔
      c.WellFormed ∧ ∃ ignored, c.Ignores ignored ∧ c.TypedAs ignored line) ∧
    (∀ line text : String, ofLine line = .ok (query text) →
      ∃ before after, Blanks before ∧ Blanks after ∧
        line.toList = before ++ text.toList ++ after) ∧
    ∀ line : String, (line.toList.dropWhile isBlank).head? = some '.' →
      ∀ text, ofLine line ≠ .ok (query text) := by
  refine ⟨fun line c => ⟨typedAs_of_ofLine, ?_⟩, fun line text parsed => ?_,
    fun line => not_query_of_dot⟩
  · rintro ⟨formed, ignored, ignores, typed⟩
    exact ofLine_of_typedAs formed ignores typed
  · obtain ⟨-, typed⟩ := query_of_ofLine parsed
    exact typedAs_query_iff.mp typed

/-- The line `.use prod app`, with a wide blank between two words and others around all. -/
def sampleLine : String := "\u00a0.use \u3000prod\tapp\n"

theorem sampleLine_parses_back :
    (use "prod" "app").WellFormed ∧ (use "prod" "app").TypedAs [] sampleLine ∧
      ofLine sampleLine = .ok (use "prod" "app") ∧
      ∀ text, ofLine sampleLine ≠ .ok (query text) := by
  have formed : (use "prod" "app").WellFormed := by simp [WellFormed, Solid, isBlank]
  have read : words sampleLine.toList = (use "prod" "app").spelling.map String.toList := by
    decide +kernel
  have typed : (use "prod" "app").TypedAs [] sampleLine := (Text.words_eq_iff.mp read).2
  obtain ⟨parses, -, never⟩ := line_parses_back
  exact ⟨formed, typed, (parses _ _).mpr ⟨formed, [], ⟨by simp, Or.inl rfl⟩, typed⟩,
    never _ (by decide +kernel)⟩

end RecordClient.Shell.Command
