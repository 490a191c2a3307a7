import Mathlib.Data.List.Forall2
import RecordClient.Proofs.Query.Literal
/-!
# The skeleton of texts

A reader that knows quotes and backslashes, and nothing else of the language, tells the strings of
a text from what is around them, its skeleton. `alike_ofJson` shows that the skeleton of a literal
does not depend on what its strings hold.
-/
namespace RecordClient

namespace Skeleton

/-! ### Reading quotes -/

/-- Where in a text the reader is. -/
inductive Place where
  | outside
  | inside (quote : Char)
  /-- Behind a backslash in a string. -/
  | escaped (quote : Char)
  deriving DecidableEq, Repr

def isQuote (c : Char) : Bool := c = '\'' || c = '"'

namespace Place

def next : Place → Char → Place
  | outside, c => if isQuote c then inside c else outside
  | inside q, c => if c = '\\' then escaped q else if c = q then outside else inside q
  | escaped q, _ => inside q

def after (p : Place) (cs : List Char) : Place := cs.foldl next p

/-- The characters outside of strings, with the quotes around each string. -/
def around : Place → List Char → List Char
  | _, [] => []
  | p, c :: rest =>
    if p = outside ∨ p.next c = outside then c :: around (p.next c) rest
    else around (p.next c) rest

theorem after_append (p : Place) (cs ds : List Char) :
    p.after (cs ++ ds) = (p.after cs).after ds := List.foldl_append

theorem around_append (p : Place) (cs ds : List Char) :
    p.around (cs ++ ds) = p.around cs ++ (p.after cs).around ds := by
  induction cs generalizing p with
  | nil => rfl
  | cons c rest ih =>
    have later := ih (p.next c)
    rw [List.cons_append, around, around, later]
    split <;> rfl

/-- Nothing that escaping leaves in a string ends it or is seen from outside. -/
theorem inside_escaped {q : Char} (quote : isQuote q = true) (cs : List Char) :
    (inside q).after (cs.flatMap Literal.escapedChar) = inside q ∧
      (inside q).around (cs.flatMap Literal.escapedChar) = [] := by
  induction cs with
  | nil => exact ⟨rfl, rfl⟩
  | cons c rest ih =>
    have step : (inside q).after (Literal.escapedChar c) = inside q ∧
        (inside q).around (Literal.escapedChar c) = [] := by
      -- A backslash hides what follows it, and a character that stands for itself is no quote.
      rcases Literal.escapedChar_cases c with ⟨d, escaped, -⟩ | ⟨itself, plain, single, double⟩
      · rw [escaped]
        simp [after, around, next]
      · have other : c ≠ q := by
          rintro rfl
          simp [isQuote, single, double] at quote
        rw [itself]
        simp [after, around, next, plain, other]
    rw [List.flatMap_cons, after_append, around_append, step.1, step.2]
    exact ih

end Place

open Place

def EndsOutside (t : String) : Prop := outside.after t.toList = outside

instance (t : String) : Decidable (EndsOutside t) :=
  inferInstanceAs (Decidable (outside.after t.toList = outside))

def ofText (t : String) : String := String.ofList (outside.around t.toList)

theorem EndsOutside.append {s t : String} (hs : EndsOutside s) (ht : EndsOutside t) :
    EndsOutside (s ++ t) := by
  unfold EndsOutside at *
  rw [String.toList_append, after_append, hs, ht]

theorem ofText_append {s : String} (hs : EndsOutside s) (t : String) :
    ofText (s ++ t) = ofText s ++ ofText t := by
  rw [ofText, String.toList_append, around_append, hs, String.ofList_append]
  rfl

theorem enclosed {q : Char} (quote : isQuote q = true) (t : String) :
    outside.after (q :: (t.toList.flatMap Literal.escapedChar ++ [q])) = outside ∧
      outside.around (q :: (t.toList.flatMap Literal.escapedChar ++ [q])) = [q, q] := by
  obtain ⟨stays, hidden⟩ := inside_escaped quote t.toList
  have opening : outside.next q = inside q := if_pos quote
  have closing : (inside q).next q = outside := by
    have plain : q ≠ '\\' := by
      rintro rfl
      cases quote
    simp [next, plain]
  constructor
  · rw [← List.singleton_append, after_append, after_append]
    show ((outside.next q).after _).next q = outside
    rw [opening, stays, closing]
  · rw [around, if_pos (Or.inl rfl), opening, around_append, stays, hidden]
    simp [around, closing]

example : ofText "a = 'it\\'s' AND \"b'\" != ''" = "a = '' AND \"\" != ''" := by decide

/-! ### Texts with one skeleton -/

def QuoteFree (t : String) : Prop := ∀ c ∈ t.toList, isQuote c = false

instance (t : String) : Decidable (QuoteFree t) := List.decidableBAll _ _

theorem QuoteFree.append {s t : String} (hs : QuoteFree s) (ht : QuoteFree t) :
    QuoteFree (s ++ t) := by
  unfold QuoteFree
  rw [String.toList_append]
  exact List.forall_mem_append.mpr ⟨hs, ht⟩

theorem quoteFree_append_iff {s t : String} : QuoteFree (s ++ t) ↔ QuoteFree s ∧ QuoteFree t := by
  unfold QuoteFree
  rw [String.toList_append]
  exact List.forall_mem_append

theorem QuoteFree.endsOutside {t : String} (plain : QuoteFree t) : EndsOutside t := by
  unfold QuoteFree at plain
  unfold EndsOutside
  generalize t.toList = cs at plain ⊢
  induction cs with
  | nil => rfl
  | cons c rest ih =>
    have first : outside.next c = outside := by simp [next, plain c List.mem_cons_self]
    show (outside.next c).after rest = outside
    rw [first]
    exact ih fun d member => plain d (List.mem_cons_of_mem _ member)

/-- Two texts that differ in nothing but the inside of closed strings. -/
structure Alike (s t : String) : Prop where
  left : EndsOutside s
  right : EndsOutside t
  same : ofText s = ofText t

theorem EndsOutside.alike {t : String} (h : EndsOutside t) : Alike t t := ⟨h, h, rfl⟩

theorem QuoteFree.alike {t : String} (plain : QuoteFree t) : Alike t t := plain.endsOutside.alike

theorem Alike.append {s t u v : String} (first : Alike s t) (second : Alike u v) :
    Alike (s ++ u) (t ++ v) := by
  refine ⟨first.left.append second.left, first.right.append second.right, ?_⟩
  rw [ofText_append first.left, ofText_append first.right, first.same, second.same]

theorem Alike.intercalate {separator : String} (plain : QuoteFree separator) {xs ys : List String}
    (h : List.Forall₂ Alike xs ys) :
    Alike (separator.intercalate xs) (separator.intercalate ys) := by
  induction h with
  | nil =>
    have nothing : QuoteFree "" := by decide
    exact nothing.alike
  | cons first rest ih =>
    cases rest with
    | nil => simpa using first
    | cons second rest =>
      rw [String.intercalate_cons_cons, String.intercalate_cons_cons]
      exact (first.append plain.alike).append ih

theorem alike_quote (s t : String) : Alike (Literal.quote s) (Literal.quote t) := by
  have chars (t : String) : (Literal.quote t).toList =
      '\'' :: (t.toList.flatMap Literal.escapedChar ++ ['\'']) := Literal.ofJson_string_toList t
  have shape (t : String) : EndsOutside (Literal.quote t) ∧ ofText (Literal.quote t) = "''" := by
    obtain ⟨ends, rest⟩ := enclosed (q := '\'') rfl t
    rw [EndsOutside, ofText, chars, ends, rest]
    exact ⟨rfl, rfl⟩
  exact ⟨(shape s).1, (shape t).1, (shape s).2.trans (shape t).2.symm⟩

theorem endsOutside_quotedKey (key : String) : EndsOutside (Literal.quotedKey key) := by
  have chars : (Literal.quotedKey key).toList =
      '"' :: (key.toList.flatMap Literal.escapedChar ++ ['"']) := by
    simp [Literal.quotedKey, Literal.escape]
  rw [EndsOutside, chars]
  exact (enclosed rfl key).1

theorem quoteFree_of_numerals {t : String} (numerals : Literal.Numerals t) : QuoteFree t := by
  intro c member
  have numeral := numerals c member
  have single : c ≠ '\'' := by
    rintro rfl
    cases numeral
  have double : c ≠ '"' := by
    rintro rfl
    cases numeral
  simp [isQuote, single, double]

end Skeleton

/-! ### Values -/

mutual

/-- A value with all its strings emptied; the keys of objects stay. -/
def Json.outline : Json → Json
  | .string _ => .string ""
  | .array items => .array (outlineItems items)
  | .object fields => .object (outlineFields fields)
  | .null => .null
  | .bool b => .bool b
  | .number n => .number n

def Json.outlineItems : List Json → List Json
  | [] => []
  | v :: rest => v.outline :: outlineItems rest

def Json.outlineFields : List (String × Json) → List (String × Json)
  | [] => []
  | (key, v) :: rest => (key, v.outline) :: outlineFields rest

end

namespace Skeleton

mutual

theorem alike_ofJson : ∀ v : Json, Alike (Literal.ofJson v) (Literal.ofJson v.outline)
  | .null => QuoteFree.alike (by decide)
  | .bool true => QuoteFree.alike (by decide)
  | .bool false => QuoteFree.alike (by decide)
  | .number n => (quoteFree_of_numerals (Literal.numerals_number n).2).alike
  | .string t => alike_quote t ""
  | .array items => by
    have opening : QuoteFree "[" := by decide
    have closing : QuoteFree "]" := by decide
    have comma : QuoteFree ", " := by decide
    have inner := Alike.intercalate comma (alike_ofItems items)
    exact (opening.alike.append inner).append closing.alike
  | .object fields => by
    have opening : QuoteFree "\x7b" := by decide
    have closing : QuoteFree "\x7d" := by decide
    have comma : QuoteFree ", " := by decide
    have inner := Alike.intercalate comma (alike_ofFields fields)
    exact (opening.alike.append inner).append closing.alike

theorem alike_ofItems : ∀ items : List Json,
    List.Forall₂ Alike (Literal.ofItems items) (Literal.ofItems (Json.outlineItems items))
  | [] => .nil
  | v :: rest => .cons (alike_ofJson v) (alike_ofItems rest)

theorem alike_ofFields : ∀ fields : List (String × Json),
    List.Forall₂ Alike (Literal.ofFields fields) (Literal.ofFields (Json.outlineFields fields))
  | [] => .nil
  | (key, v) :: rest => by
    have colon : QuoteFree ": " := by decide
    have field := ((endsOutside_quotedKey key).alike.append colon.alike).append (alike_ofJson v)
    exact .cons field (alike_ofFields rest)

end

end Skeleton

end RecordClient
