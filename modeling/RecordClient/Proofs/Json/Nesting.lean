import Mathlib.Data.List.TakeWhile
import RecordClient.Proofs.Json.Depth
/-!
# Counting brackets

`textDepth` counts how many brackets and braces of a text stand open at once, outside its strings.
Every reader is shown to keep to this count (`Scans`), down to single escapes and digits. So it is
the depth that reading a value needs (`Spells.nestsWithin_value_iff`), and reading an answer needs
no more (`Spells.nestsWithin_answer`).
-/
namespace RecordClient.Json

mutual

/-- The most brackets that are open at once, from where `d` of them are. -/
def peak : List Char → Nat → Nat
  | [], d => d
  | '"' :: rest, d => peakQuoted rest d
  | '[' :: rest, d | '\x7b' :: rest, d => peak rest (d + 1)
  | ']' :: rest, d | '\x7d' :: rest, d => max d (peak rest (d - 1))
  | _ :: rest, d => peak rest d

/-- From inside a string, where brackets do not count. -/
def peakQuoted : List Char → Nat → Nat
  | [], d => d
  | '"' :: rest, d => peak rest d
  | '\\' :: _ :: rest, d => peakQuoted rest d
  | _ :: rest, d => peakQuoted rest d

end

def textDepth (text : String) : Nat := peak text.toList 0

/-- What is open counts, and each character opens at most one. -/
theorem peak_bounds : (∀ (cs : List Char) (d : Nat), d ≤ peak cs d ∧ peak cs d ≤ d + cs.length) ∧
    ∀ (cs : List Char) (d : Nat), d ≤ peakQuoted cs d ∧ peakQuoted cs d ≤ d + cs.length := by
  apply peak.mutual_induct
  all_goals intros
  all_goals simp only [peak, peakQuoted, List.length_nil, List.length_cons, true_and, *]
  all_goals omega

theorem le_peak (cs : List Char) (d : Nat) : d ≤ peak cs d := (peak_bounds.1 cs d).1

theorem peak_le (cs : List Char) (d : Nat) : peak cs d ≤ d + cs.length := (peak_bounds.1 cs d).2

/-- A character that neither opens nor closes anything. -/
def Plain (c : Char) : Prop := c ∉ ['"', '[', '\x7b', ']', '\x7d']

instance (c : Char) : Decidable (Plain c) := inferInstanceAs (Decidable (c ∉ _))

theorem peak_plain {c : Char} (plain : Plain c) (rest : List Char) (d : Nat) :
    peak (c :: rest) d = peak rest d := by
  rw [peak] <;> rintro rfl <;> exact plain (by simp)

theorem peakQuoted_plain {c : Char} (quote : c ≠ '"') (backslash : c ≠ '\\') (rest : List Char)
    (d : Nat) : peakQuoted (c :: rest) d = peakQuoted rest d := by
  rw [peakQuoted]
  · exact quote
  · intro e tail same
    exact absurd same backslash

theorem peak_append_plain {front : List Char} (plain : ∀ c ∈ front, Plain c) (rest : List Char)
    (d : Nat) : peak (front ++ rest) d = peak rest d := by
  induction front with
  | nil => rfl
  | cons c front ih =>
    rw [List.cons_append, peak_plain (plain c List.mem_cons_self)]
    exact ih fun c member => plain c (List.mem_cons_of_mem _ member)

theorem peak_dropWhile {p : Char → Bool} (plain : ∀ c, p c = true → Plain c) (cs : List Char)
    (d : Nat) : peak (cs.dropWhile p) d = peak cs d := by
  have front : ∀ c ∈ cs.takeWhile p, Plain c := fun c member =>
    plain c (List.mem_takeWhile_imp member)
  rw [← peak_append_plain front (cs.dropWhile p), List.takeWhile_append_dropWhile]

theorem plain_of_isGap {c : Char} (gap : Reader.isGap c = true) : Plain c := by
  unfold Reader.isGap at gap
  simp only [Bool.or_eq_true, decide_eq_true_eq] at gap
  rcases gap with ((rfl | rfl) | rfl) | rfl <;> decide

theorem plain_of_isDigit {c : Char} (digit : Reader.isDigit c = true) : Plain c := by
  intro bracket
  simp only [List.mem_cons, List.not_mem_nil, or_false] at bracket
  rcases bracket with rfl | rfl | rfl | rfl | rfl <;> exact absurd digit (by decide)

theorem peak_of_gap {cs next : List Char} (gap : cs.dropWhile Reader.isGap = next) (d : Nat) :
    peak cs d = peak next d := by
  rw [← gap, peak_dropWhile fun _ => plain_of_isGap]

example : textDepth "[[], \"[[[\"]" = 2 := by decide

/-! ### Outcomes -/

namespace Reader

variable {α β γ : Type}

/-- What reading comes to where the brackets of the text reach up to `p` and may reach up to
`limit`. What is left reaches no further; what is taken off stays within the limit if the `whole` of
it is read and nothing passed over; and only a text that goes beyond the limit is too deep. -/
structure Scans (whole : Prop) (limit p : Nat) (left : β → Nat) (o : Except Stop β) : Prop where
  behind : ∀ b, o = .ok b → left b ≤ p
  within : whole → ∀ b, o = .ok b → p ≤ max limit (left b)
  deep : ∀ s, o = .error s → s.cause = .inl .tooDeep → limit < p

variable {whole : Prop} {limit p : Nat} {left : β → Nat} {left' : γ → Nat}

namespace Scans

theorem ok {b : β} (same : left b = p) : Scans whole limit p left (.ok b) where
  behind := by rintro _ ⟨⟩; omega
  within := by rintro - _ ⟨⟩; omega
  deep := nofun

/-- What is taken off ends by closing what stood open. -/
theorem close {d : Nat} {b : β} (le : whole → d ≤ limit) (same : p = max d (left b)) :
    Scans whole limit p left (.ok b) where
  behind := by rintro _ ⟨⟩; omega
  within all := by
    have := le all
    rintro _ ⟨⟩
    omega
  deep := nofun

theorem error {s : Stop} (other : s.cause ≠ .inl .tooDeep) :
    Scans whole limit p left (.error s) where
  behind := nofun
  within := fun _ => nofun
  deep := by
    rintro _ ⟨⟩ deep
    exact absurd deep other

theorem stop {flaw : Flaw} (other : flaw ≠ .tooDeep) (cs : List Char) :
    Scans whole limit p left (Reader.stop flaw cs) :=
  error fun deep => other (Sum.inl.inj deep)

theorem stopAt {flaw : Flaw} (other : flaw ≠ .tooDeep) (cs : List Char) :
    Scans whole limit p left (Reader.stopAt flaw cs) :=
  error fun deep => other (Sum.inl.inj deep)

theorem refuse (misfit : Misfit) (cs : List Char) :
    Scans whole limit p left (Reader.refuse misfit cs) :=
  error fun deep => nomatch deep

theorem tooDeep (far : limit < p) (cs : List Char) :
    Scans whole limit p left (Reader.stop .tooDeep cs) where
  behind := nofun
  within := fun _ => nofun
  deep _ _ _ := far

theorem failed {o : Except Stop β} (h : Scans whole limit p left o) {s : Stop}
    (stopped : o = .error s) : Scans whole limit p left' (.error s) where
  behind := nofun
  within := fun _ => nofun
  deep := by
    rintro _ ⟨⟩ deep
    exact h.deep s stopped deep

theorem next {o : Except Stop β} (h : Scans whole limit p left o) {b : β} (read : o = .ok b)
    {o' : Except Stop γ} (later : Scans whole limit (left b) left' o') :
    Scans whole limit p left' o' := by
  have first := h.behind b read
  refine ⟨fun c taken => ?_, fun all c taken => ?_, fun s stopped deep => ?_⟩
  · have := later.behind c taken
    omega
  · have := later.within all c taken
    have := h.within all b read
    omega
  · have := later.deep s stopped deep
    omega

theorem bind {o : Except Stop β} (h : Scans whole limit p left o) {f : β → Except Stop γ}
    (later : ∀ b, Scans whole limit (left b) left' (f b)) :
    Scans whole limit p left' (o.bind f) := by
  cases o with
  | error s => exact h.failed rfl
  | ok b => exact h.next rfl (later b)

theorem map {o : Except Stop β} (h : Scans whole limit p left o) {f : β → γ}
    (same : ∀ b, left' (f b) = left b) : Scans whole limit p left' (o.map f) := by
  cases o with
  | error s => exact h.failed rfl
  | ok b => exact h.next rfl (ok (same b))

end Scans

/-- How far what is left reaches, where `d` brackets are open. -/
def Taken.reach {cs : List Char} (d : Nat) (t : Taken cs α) : Nat := peak t.rest d

/-- How far what is left inside a string reaches. -/
def Taken.reachQuoted {cs : List Char} (d : Nat) (t : Taken cs α) : Nat := peakQuoted t.rest d

/-- A reader that starts and ends where `d` brackets are open. -/
def Keeps (whole : Prop) (limit d : Nat) (r : (cs : List Char) → Result cs α) : Prop :=
  ∀ cs, Scans whole limit (peak cs d) (Taken.reach d) (r cs)

/-- A reader that ends by closing the last of the brackets that are open where it starts. -/
def Closes (whole : Prop) (limit d : Nat) (r : (cs : List Char) → Result cs α) : Prop :=
  ∀ cs, Scans whole limit (peak cs (d + 1)) (Taken.reach d) (r cs)

variable {d : Nat}

/-! ### Strings -/

/-- Behind a backslash inside a string, the string goes on. -/
def KeepsString (whole : Prop) (limit : Nat) (escape : (cs : List Char) → Result cs Char) : Prop :=
  ∀ cs d, Scans whole limit (peakQuoted ('\\' :: cs) d) (Taken.reachQuoted d) (escape cs)

theorem not_quote_of_digitValue? {c : Char} {n : Nat} (digit : Hex.digitValue? c = some n) :
    c ≠ '"' ∧ c ≠ '\\' := by
  have quote : Hex.digitValue? '"' = none := by decide
  have backslash : Hex.digitValue? '\\' = none := by decide
  constructor <;> rintro rfl
  · cases digit.symm.trans quote
  · cases digit.symm.trans backslash

theorem peakQuoted_digits {digits : List Char} {start n : Nat}
    (value : digits.foldlM (fun n c => (Hex.digitValue? c).map (16 * n + ·)) start = some n)
    (rest : List Char) (d : Nat) : peakQuoted (digits ++ rest) d = peakQuoted rest d := by
  induction digits generalizing start with
  | nil => rfl
  | cons c digits ih =>
    rw [List.foldlM_cons] at value
    cases digit : Hex.digitValue? c with
    | none =>
      rw [digit] at value
      cases value
    | some m =>
      rw [digit] at value
      have other := not_quote_of_digitValue? digit
      rw [List.cons_append, peakQuoted_plain other.1 other.2, ih value]

theorem hexUnit_scans (cs : List Char) (d : Nat) :
    Scans whole limit (peakQuoted cs d) (Taken.reachQuoted d) (hexUnit cs) := by
  unfold hexUnit
  split
  · next a b c e rest =>
    split
    · next value => exact .ok (peakQuoted_digits value rest d).symm
    · exact .stop (by decide) _
  · split <;> exact .stop (by decide) _

theorem numberedEscape_scans (cs : List Char) (d : Nat) :
    Scans whole limit (peakQuoted cs d) (Taken.reachQuoted d) (numberedEscape cs) := by
  have first : Scans whole limit (peakQuoted cs d) (Taken.reachQuoted d) (hexUnit cs) :=
    hexUnit_scans cs d
  unfold numberedEscape
  split
  · next stopped => exact first.failed stopped
  · next high rest shorter read =>
    refine first.next read ?_
    dsimp only [Taken.reachQuoted]
    split
    · exact .stop (by decide) _
    · split
      · exact .ok rfl
      · split
        · exact .stop (by decide) _
        · exact .stop (by decide) _
        · next tail _ =>
          have second : Scans whole limit (peakQuoted tail d) (Taken.reachQuoted d)
            (hexUnit tail) := hexUnit_scans tail d
          split
          · next stopped => exact second.failed stopped
          · next read =>
            refine second.next read ?_
            split
            · exact .ok rfl
            · exact .stop (by decide) _
        · exact .stop (by decide) _
        · exact .stop (by decide) _

theorem escape_keeps : KeepsString whole limit escape := by
  intro cs d
  unfold escape
  split
  · exact .stop (by decide) _
  iterate 8 exact .ok (by rw [peakQuoted]; rfl)
  · next rest =>
    rw [peakQuoted]
    exact (numberedEscape_scans rest d).map fun _ => rfl
  · exact .stop (by decide) _

theorem ignoredEscape_keeps : KeepsString whole limit ignoredEscape := by
  intro cs d
  unfold ignoredEscape
  split
  · next rest =>
    rw [peakQuoted]
    exact (hexUnit_scans rest d).map fun _ => rfl
  · exact escape_keeps _ d

theorem string_scans {escape : (cs : List Char) → Result cs Char}
    (keeps : KeepsString whole limit escape) (cs : List Char) (d : Nat) :
    Scans whole limit (peakQuoted cs d) (Taken.reach d) (string escape cs) := by
  fun_induction string escape cs with
  | case1 => exact .stop (by decide) _
  | case2 rest => exact .ok (by rw [peakQuoted]; rfl)
  | case3 rest s stopped => exact (keeps rest d).failed stopped
  | case4 rest c read ih => exact (keeps rest d).next read (ih.map fun _ => rfl)
  | case5 c rest quote backslash low => exact .stop (by decide) _
  | case6 c rest quote backslash high ih =>
    rw [peakQuoted_plain quote backslash]
    exact ih.map fun _ => rfl

/-! ### Numbers and words -/

theorem digitsFrom_reach {c : Char} (digit : isDigit c = true) (rest : List Char) :
    (digitsFrom c rest).reach d = peak (c :: rest) d := by
  rw [peak_plain (plain_of_isDigit digit)]
  exact peak_dropWhile (fun _ => plain_of_isDigit) rest d

theorem wholeDigits_keeps : Keeps whole limit d wholeDigits := by
  intro cs
  unfold wholeDigits
  split
  · exact .stop (by decide) _
  · next rest =>
    split
    · exact .stopAt (by decide) _
    · exact .ok (peak_plain (by decide) rest d).symm
  · next c rest _ =>
    split
    · next digit => exact .ok (digitsFrom_reach digit rest)
    · exact .stop (by decide) _

theorem someDigits_keeps : Keeps whole limit d someDigits := by
  intro cs
  unfold someDigits
  split
  · exact .stop (by decide) _
  · next c rest =>
    split
    · next digit => exact .ok (digitsFrom_reach digit rest)
    · exact .stopAt (by decide) _

theorem exponentPart_keeps : Keeps whole limit d exponentPart := by
  intro cs
  unfold exponentPart
  split
  · next rest =>
    rw [peak_plain (by decide)]
    exact (someDigits_keeps rest).map fun _ => rfl
  · next rest =>
    rw [peak_plain (by decide)]
    exact (someDigits_keeps rest).map fun _ => rfl
  · exact (someDigits_keeps _).map fun _ => rfl

theorem fractionPart_scans {cs : List Char} (t : Taken cs α) :
    Scans whole limit (t.reach d) (Taken.reach d) (fractionPart t) := by
  obtain ⟨value, rest, shorter⟩ := t
  unfold fractionPart Taken.reach
  dsimp only
  split
  · next tail _ =>
    rw [peak_plain (by decide)]
    exact (someDigits_keeps tail).map fun _ => rfl
  · exact .ok rfl

theorem exponentOf_scans {cs : List Char} (t : Taken cs α) :
    Scans whole limit (t.reach d) (Taken.reach d) (exponentOf t) := by
  obtain ⟨value, rest, shorter⟩ := t
  unfold exponentOf Taken.reach
  dsimp only
  split
  · next c tail _ =>
    split
    · next e =>
      have plain : Plain c := by rcases e with rfl | rfl <;> decide
      rw [peak_plain plain]
      exact (exponentPart_keeps tail).map fun _ => rfl
    · exact .ok rfl
  · exact .ok rfl

theorem unsigned_keeps (negative : Bool) : Keeps whole limit d (unsigned negative) := fun cs =>
  (((wholeDigits_keeps cs).bind fractionPart_scans).bind exponentOf_scans).map fun _ => rfl

theorem numeral_keeps : Keeps whole limit d numeral := by
  intro cs
  unfold numeral
  split
  · next rest =>
    rw [peak_plain (by decide)]
    exact (unsigned_keeps true rest).map fun _ => rfl
  · exact unsigned_keeps false _

theorem number_keeps : Keeps whole limit d number := by
  intro cs
  have first : Scans whole limit (peak cs d) (Taken.reach d) (numeral cs) := numeral_keeps cs
  unfold number
  split
  · next stopped => exact first.failed stopped
  · next read =>
    refine first.next read ?_
    split
    · exact .ok rfl
    · exact .stop (by decide) _

theorem letters_scans {expected : List Char} (plain : ∀ c ∈ expected, Plain c) (cs : List Char) :
    Scans whole limit (peak cs d) (fun r => peak r.1 d) (letters expected cs) := by
  induction expected generalizing cs with
  | nil => exact .ok rfl
  | cons e expected ih =>
    cases cs with
    | nil => exact .stop (by decide) _
    | cons c cs =>
      unfold letters
      split
      · next same =>
        subst same
        rw [peak_plain (plain e List.mem_cons_self)]
        exact (ih (fun c member => plain c (List.mem_cons_of_mem _ member)) cs).map fun _ => rfl
      · exact .stop (by decide) _

theorem word_scans {first : Char} {expected : String} (plain : Plain first)
    (letters : expected.toList.all (Plain ·) = true) (value : α) (cs : List Char) :
    Scans whole limit (peak (first :: cs) d) (Taken.reach d) (word first expected value cs) := by
  have each : ∀ c ∈ expected.toList, Plain c := fun c member =>
    of_decide_eq_true (List.all_eq_true.mp letters c member)
  rw [peak_plain plain]
  exact (letters_scans each cs).map fun _ => rfl

/-! ### Lists and objects -/

section

variable {item : (cs : List Char) → Result cs α}

theorem moreItems_closes (fits : whole → d + 1 ≤ limit) (keeps : Keeps whole limit (d + 1) item) :
    Closes whole limit d (moreItems item) := by
  intro cs
  rw [moreItems]
  split
  · exact .stop (by decide) _
  · next tail gap =>
    rw [peak_of_gap gap, peak]
    exact .close fits rfl
  · next rest gap =>
    rw [peak_of_gap gap, peak_plain (by decide)]
    split
    · exact .stop (by decide) _
    · exact .stopAt (by decide) _
    · rw [peak_of_gap rfl]
      exact (keeps _).bind fun first => (moreItems_closes fits keeps first.rest).map fun _ => rfl
  · exact .stopAt (by decide) _
termination_by cs => cs.length
decreasing_by exact ((first.behindGap ‹_›).pastGap ‹_›).shorter

theorem list_closes (fits : whole → d + 1 ≤ limit) (keeps : Keeps whole limit (d + 1) item) :
    Closes whole limit d (list item) := by
  intro cs
  unfold list
  split
  · exact .stop (by decide) _
  · next tail gap =>
    rw [peak_of_gap gap, peak]
    exact .close fits rfl
  · rw [peak_of_gap rfl]
    exact (keeps _).bind fun first => (moreItems_closes fits keeps first.rest).map fun _ => rfl

end

section

variable {reader : FieldReader α}

/-- A reader of fields whose parts keep to the limit. -/
structure FieldReader.Keeps (whole : Prop) (limit d : Nat) (reader : FieldReader α) : Prop where
  escape : KeepsString whole limit reader.escape
  field : ∀ seen key, Reader.Keeps whole limit d (reader.field seen key)

theorem colon_keeps : Keeps whole limit d colon := by
  intro cs
  unfold colon
  split
  · exact .stop (by decide) _
  · next gap =>
    rw [peak_of_gap gap, peak_plain (by decide)]
    exact .ok rfl
  · exact .stopAt (by decide) _

theorem field_scans (keeps : reader.Keeps whole limit d) (seen : List String) (cs : List Char) :
    Scans whole limit (peakQuoted cs d) (Taken.reach d) (field reader seen cs) :=
  (string_scans keeps.escape cs d).bind fun key => (colon_keeps key.rest).bind fun c =>
    (keeps.field seen _ c.rest).map fun _ => rfl

theorem moreFields_closes (fits : whole → d + 1 ≤ limit) (keeps : reader.Keeps whole limit (d + 1))
    (seen : List String) : Closes whole limit d (moreFields reader seen) := by
  intro cs
  rw [moreFields]
  split
  · exact .stop (by decide) _
  · next gap =>
    rw [peak_of_gap gap, peak]
    exact .close fits rfl
  · next rest gap =>
    rw [peak_of_gap gap, peak_plain (by decide)]
    split
    · exact .stop (by decide) _
    · next tail behind =>
      rw [peak_of_gap behind, peak]
      exact (field_scans keeps seen tail).bind fun first =>
        (moreFields_closes fits keeps (first.value.1 :: seen) first.rest).map fun _ => rfl
    · exact .stopAt (by decide) _
    · exact .stopAt (by decide) _
  · exact .stopAt (by decide) _
termination_by cs => cs.length
decreasing_by exact ((first.pastGap ‹_›).pastGap ‹_›).shorter

theorem object_closes (fits : whole → d + 1 ≤ limit) (keeps : reader.Keeps whole limit (d + 1)) :
    Closes whole limit d (object reader) := by
  intro cs
  unfold object
  split
  · exact .stop (by decide) _
  · next gap =>
    rw [peak_of_gap gap, peak]
    exact .close fits rfl
  · next rest gap =>
    rw [peak_of_gap gap, peak]
    exact (field_scans keeps [] rest).bind fun first =>
      (moreFields_closes fits keeps [first.value.1] first.rest).map fun _ => rfl
  · exact .stopAt (by decide) _

end

/-! ### Values -/

theorem afterGap_keeps {item : (cs : List Char) → Result cs α} (keeps : Keeps whole limit d item) :
    Keeps whole limit d (afterGap item) := by
  intro cs
  rw [peak_of_gap rfl]
  exact (keeps _).map fun _ => rfl

/-- Readers of the kinds of values that keep to the limit. -/
structure Cases.Keep (whole : Prop) (limit d : Nat) (cases : Cases α) : Prop where
  number : Keeps whole limit d cases.number
  string : ∀ cs, Scans whole limit (peakQuoted cs d) (Taken.reach d) (cases.string cs)
  list : Closes whole limit d cases.list
  object : Closes whole limit d cases.object

theorem byKind_keeps {cases : Cases α} (keep : cases.Keep whole limit d) :
    Keeps whole limit d (byKind cases) := by
  refine afterGap_keeps fun cs => ?_
  unfold ofKind
  split
  · exact .stop (by decide) _
  iterate 3 exact word_scans (by decide) (by decide) _ _
  · next rest =>
    rw [peak]
    exact (keep.string rest).map fun _ => rfl
  · next rest =>
    rw [peak]
    exact (keep.list rest).map fun _ => rfl
  · next rest =>
    rw [peak]
    exact (keep.object rest).map fun _ => rfl
  · split
    · exact keep.number _
    · exact .stopAt (by decide) _

theorem none_closes : Closes whole d d fun cs => (stop .tooDeep cs : Result cs α) := fun cs =>
  .tooDeep (le_peak cs (d + 1)) cs

theorem valueOver_keeps {inner : Inner Json} (list : Closes whole limit d inner.list)
    (object : Closes whole limit d inner.object) : Keeps whole limit d (valueOver inner) :=
  byKind_keeps
    { number cs := (number_keeps cs).map fun _ => rfl
      string cs := (string_scans escape_keeps cs d).map fun _ => rfl
      list cs := (list cs).map fun _ => rfl
      object cs := (object cs).map fun _ => rfl }

theorem value_keeps (m d : Nat) : Keeps whole (d + m) d (value m) := by
  induction m generalizing d with
  | zero => exact valueOver_keeps none_closes none_closes
  | succ m ih =>
    have deeper : Keeps whole (d + (m + 1)) (d + 1) (value m) := by
      rw [Nat.add_comm m 1, ← Nat.add_assoc]
      exact ih (d + 1)
    have fits : d + 1 ≤ d + (m + 1) := by omega
    exact valueOver_keeps (list_closes (fun _ => fits) deeper)
      (object_closes (fun _ => fits) ⟨escape_keeps, fun _ _ => deeper⟩)

theorem ignoredOver_keeps {inner : Inner Unit} (list : Closes whole limit d inner.list)
    (object : Closes whole limit d inner.object) : Keeps whole limit d (ignoredOver inner) :=
  byKind_keeps
    { number cs := (numeral_keeps cs).map fun _ => rfl
      string cs := (string_scans ignoredEscape_keeps cs d).map fun _ => rfl
      list cs := (list cs).map fun _ => rfl
      object cs := (object cs).map fun _ => rfl }

theorem ignoredWithin_keeps (m d : Nat) : Keeps whole (d + m) d (ignoredWithin m) := by
  induction m generalizing d with
  | zero => exact ignoredOver_keeps none_closes none_closes
  | succ m ih =>
    have deeper : Keeps whole (d + (m + 1)) (d + 1) (ignoredWithin m) := by
      rw [Nat.add_comm m 1, ← Nat.add_assoc]
      exact ih (d + 1)
    have fits : d + 1 ≤ d + (m + 1) := by omega
    exact ignoredOver_keeps (list_closes (fun _ => fits) deeper)
      (object_closes (fun _ => fits) ⟨ignoredEscape_keeps, fun _ _ => deeper⟩)

/-- A value that is passed over is never too deep. -/
theorem ignored_keeps : Keeps False limit d ignored := by
  intro cs
  have own : Scans False (d + cs.length) (peak cs d) (Taken.reach d) (ignored cs) :=
    ignoredWithin_keeps cs.length d cs
  have bound := peak_le cs d
  exact ⟨own.behind, nofun, fun s stopped deep => absurd (own.deep s stopped deep) (by omega)⟩

/-! ### Structures -/

theorem mismatch_keeps (expected : String) :
    Keeps whole limit d fun cs => (mismatch expected cs : Result cs α) := by
  intro cs
  have kind : Keeps whole limit d (byKind
      { null := Found.null
        bool := .bool
        number := fun cs => (number cs).map (·.map .number)
        string := fun cs => (string escape cs).map (·.map (.string <| String.ofList ·))
        list := fun cs => refuse (.wrongType .list expected) cs
        object := fun cs => refuse (.wrongType .object expected) cs }) :=
    byKind_keeps
      { number cs := (number_keeps cs).map fun _ => rfl
        string cs := (string_scans escape_keeps cs d).map fun _ => rfl
        list _ := .refuse _ _
        object _ := .refuse _ _ }
  unfold mismatch
  dsimp only
  split
  · next stopped => exact (kind cs).failed stopped
  · next read => exact (kind cs).next read (.refuse _ _)

theorem integer_keeps : Keeps whole limit d integer := by
  unfold integer
  refine afterGap_keeps fun cs => ?_
  split
  · have first : Scans whole limit (peak cs d) (Taken.reach d) (number cs) := number_keeps cs
    split
    · next stopped => exact first.failed stopped
    · next read =>
      refine first.next read ?_
      split
      · split
        · exact .ok rfl
        · exact .refuse _ _
      · exact .refuse _ _
  · exact mismatch_keeps _ cs

theorem text_keeps : Keeps whole limit d text := by
  refine afterGap_keeps fun cs => ?_
  split
  · next rest =>
    rw [peak]
    exact (string_scans escape_keeps rest d).map fun _ => rfl
  · exact mismatch_keeps _ _

theorem optional_keeps {item : (cs : List Char) → Result cs α} (keeps : Keeps whole limit d item) :
    Keeps whole limit d (optional item) := by
  refine afterGap_keeps fun cs => ?_
  split
  · exact word_scans (by decide) (by decide) _ _
  · exact (keeps _).map fun _ => rfl

section

variable {fields : List (Field α)}

theorem declaredField_keeps (keeps : ∀ f ∈ fields, Keeps False limit d f.item) :
    (declaredField fields).Keeps False limit d where
  escape := escape_keeps
  field seen key cs := by
    dsimp only [declaredField]
    split
    · next f found =>
      split
      · exact .refuse _ _
      · exact (keeps f (List.mem_of_find?_eq_some found) cs).map fun _ => rfl
    · exact (ignored_keeps cs).map fun _ => rfl

theorem nextItem_scans {item : (cs : List Char) → Result cs α} (keeps : Keeps whole limit d item)
    (first : Bool) (cs : List Char) :
    Scans whole limit (peak cs d) (fun r => peak r.2.1 d) (nextItem first item cs) := by
  unfold nextItem
  split
  · exact .stop (by decide) _
  · next gap => exact .ok (peak_of_gap gap d).symm
  · next c rest _ gap =>
    rw [peak_of_gap gap]
    split
    · exact (keeps _).map fun _ => rfl
    · split
      · next comma =>
        subst comma
        rw [peak_plain (by decide)]
        split
        · exact .stop (by decide) _
        · exact .stopAt (by decide) _
        · rw [peak_of_gap rfl]
          exact (keeps _).map fun _ => rfl
      · exact .stopAt (by decide) _

theorem itemsFor_scans (keeps : ∀ f ∈ fields, Keeps whole limit d f.item) (required : Nat)
    (tooShort : Nat → Misfit) (index : Nat) (cs : List Char) :
    Scans whole limit (peak cs d) (fun r => peak r.2.1 d)
      (itemsFor required tooShort index fields cs) := by
  induction fields generalizing index cs with
  | nil => exact .ok rfl
  | cons f fields ih =>
    refine (nextItem_scans (keeps f List.mem_cons_self) _ cs).bind fun next => ?_
    match next with
    | (none, rest) =>
      dsimp only
      split
      · exact .refuse _ _
      · exact .ok rfl
    | (some value, rest) =>
      exact (ih (fun g member => keeps g (List.mem_cons_of_mem _ member)) (index + 1) rest.1).map
        fun _ => rfl

theorem listEnd_closes (fits : whole → d + 1 ≤ limit) : Closes whole limit d listEnd := by
  intro cs
  unfold listEnd
  split
  · exact .stop (by decide) _
  · next gap =>
    rw [peak_of_gap gap, peak]
    exact .close fits rfl
  · split <;> exact .stopAt (by decide) _
  · exact .stopAt (by decide) _

theorem structureOf_keeps (keeps : ∀ f ∈ fields, Keeps False limit (d + 1) f.item)
    (expected : String) (required : Nat) :
    Keeps False limit d (structureOf expected required fields) := by
  intro cs
  unfold structureOf
  split
  · next rest gap =>
    rw [peak_of_gap gap, peak]
    exact (object_closes nofun (declaredField_keeps keeps) rest).map fun _ => rfl
  · next rest gap =>
    rw [peak_of_gap gap, peak]
    exact (itemsFor_scans keeps _ _ 0 rest).bind fun items =>
      (listEnd_closes nofun items.2.1).map fun _ => rfl
  · exact mismatch_keeps _ cs

theorem build_keeps {make : List α → Except Misfit β}
    {item : (cs : List Char) → Result cs (List α)} (keeps : Keeps whole limit d item) :
    Keeps whole limit d (build make item) := fun cs =>
  (keeps cs).bind fun t => by
    split
    · exact .ok rfl
    · exact .refuse _ _

end

open Rpc in
theorem failure_keeps : Keeps False limit d Failure.reader := by
  refine build_keeps (structureOf_keeps (fun f member => ?_) _ _)
  simp only [List.mem_cons, List.not_mem_nil, or_false] at member
  rcases member with rfl | rfl
  · exact fun cs => (integer_keeps cs).map fun _ => rfl
  · exact fun cs => (text_keeps cs).map fun _ => rfl

open Rpc in
theorem answer_keeps (m d : Nat) : Keeps False (d + 1 + m) d (Answer.reader m) := by
  refine build_keeps (structureOf_keeps (fun f member => ?_) _ _)
  unfold Answer.fields at member
  simp only [List.mem_cons, List.not_mem_nil, or_false] at member
  rcases member with rfl | rfl | rfl
  · exact fun cs => (optional_keeps (value_keeps m (d + 1)) cs).map fun _ => rfl
  · exact fun cs => (optional_keeps (value_keeps m (d + 1)) cs).map fun _ => rfl
  · exact fun cs => (optional_keeps failure_keeps cs).map fun _ => rfl

end Reader

/-! ### Texts -/

section

variable {α : Type} {reader : Nat → (cs : List Char) → Reader.Result cs α} {text : String} {a : α}

theorem textDepth_le_of_read {r : (cs : List Char) → Reader.Result cs α} {limit : Nat}
    (keeps : Reader.Keeps True limit 0 r) (read : readWhole r text = .ok a) :
    textDepth text ≤ limit := by
  unfold readWhole readAll at read
  have scans := keeps text.toList
  dsimp only at read
  split at read
  · cases read
  · next t taken =>
    have within := scans.within trivial t taken
    split at read
    · next gap =>
      -- Behind the value there are only blanks, so nothing is left that could reach further.
      rw [Reader.Taken.reach, peak_of_gap gap, peak, Nat.max_zero] at within
      exact within
    · cases read

theorem lt_textDepth_of_tooDeep {r : (cs : List Char) → Reader.Result cs α} {limit : Nat}
    {place : Position} (keeps : Reader.Keeps False limit 0 r)
    (refused : readWhole r text = .error (.flaw .tooDeep place)) : limit < textDepth text := by
  unfold readWhole readAll at refused
  have scans := keeps text.toList
  dsimp only at refused
  split at refused
  · next s stopped =>
    refine scans.deep s stopped ?_
    split at refused
    · next cause =>
      cases refused
      exact cause
    · cases refused
  · split at refused <;> cases refused

/-- A text is not refused for its depth if its brackets stay within the limit. -/
theorem Spells.nestsWithin {m limit : Nat} (graded : Graded reader)
    (keeps : Reader.Keeps False limit 0 (reader m)) (spelled : Spells reader text a)
    (flat : textDepth text ≤ limit) : NestsWithin reader m text := by
  rcases spelled.read_or_deep graded m with ⟨within, -⟩ | ⟨-, place, refused⟩
  · exact within
  · exact absurd (lt_textDepth_of_tooDeep keeps refused) (Nat.not_lt.mpr flat)

end

/-- A value is read if and only if the brackets of its text stay within the limit. -/
theorem Spells.nestsWithin_value_iff {text : String} {v : Json}
    (spelled : Spells Reader.value text v) (m : Nat) :
    NestsWithin Reader.value m text ↔ textDepth text ≤ m := by
  constructor
  · rintro ⟨a, read⟩
    exact Nat.zero_add m ▸ textDepth_le_of_read (Reader.value_keeps m 0) read
  · intro flat
    exact spelled.nestsWithin graded_value (Reader.value_keeps m 0) (by omega)

/-- An answer is read if its brackets stay within the limit and a level for itself. What is passed
over in it may be deeper still. -/
theorem Spells.nestsWithin_answer {frame : String} {a : Rpc.Answer}
    (spelled : Spells Rpc.Answer.reader frame a) {m : Nat} (flat : textDepth frame ≤ m + 1) :
    NestsWithin Rpc.Answer.reader m frame :=
  spelled.nestsWithin graded_answer (Reader.answer_keeps m 0) (by omega)

end RecordClient.Json
