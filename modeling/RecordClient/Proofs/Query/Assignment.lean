import RecordClient.Connection.Recorder
import RecordClient.Proofs.Connection.Run
import RecordClient.Proofs.Query.Literal
/-!
# Assignments of a record

The keys of a record are written into a `SET` clause as they are, and nothing marks their end but
the equals sign behind them. `assignments_tell_apart` shows that records whose keys hold no equals
sign between blanks never share a clause, and which records share theirs with another.
-/
namespace RecordClient.Literal

/-! ### Paired quotes -/

/-- The side of the quotes that a reader of values is on. Outside of strings it gives up at a
backslash and at an equals sign, which no value has there. -/
inductive Side where
  | outside
  | inside
  /-- Behind a backslash in a string. -/
  | escaped
  deriving DecidableEq, Repr

namespace Side

def next? : Side → Char → Option Side
  | outside, c =>
    if c = '\'' ∨ c = '"' then some inside
    else if c = '\\' ∨ c = '=' then none
    else some outside
  | inside, c =>
    if c = '\\' then some escaped
    else if c = '\'' ∨ c = '"' then some outside
    else some inside
  | escaped, _ => some inside

def after? (s : Side) (cs : List Char) : Option Side := cs.foldlM next? s

theorem after?_append (s : Side) (cs ds : List Char) :
    s.after? (cs ++ ds) = (s.after? cs).bind fun t => t.after? ds := List.foldlM_append

theorem after?_cons (s : Side) (c : Char) (cs : List Char) :
    s.after? (c :: cs) = (s.next? c).bind fun t => t.after? cs := List.foldlM_cons

end Side

open Side

/-- A text that leaves the reader on the side where it found it. -/
structure Paired (cs : List Char) : Prop where
  outer : outside.after? cs = some outside
  inner : ∀ s, inside.after? cs = some s → s = inside

theorem Paired.nil : Paired [] := ⟨rfl, fun _ same => (Option.some.inj same).symm⟩

theorem Paired.append {cs ds : List Char} (hc : Paired cs) (hd : Paired ds) :
    Paired (cs ++ ds) := by
  constructor
  · rw [after?_append, hc.outer]
    exact hd.outer
  · intro s read
    rw [after?_append] at read
    obtain ⟨t, first, rest⟩ := Option.bind_eq_some_iff.mp read
    rw [hc.inner t first] at rest
    exact hd.inner s rest

def isPlain (c : Char) : Bool := c ≠ '\'' && c ≠ '"' && c ≠ '\\' && c ≠ '='

theorem paired_of_plain {cs : List Char} (plain : cs.all isPlain = true) : Paired cs := by
  induction cs with
  | nil => exact .nil
  | cons c rest ih =>
    rw [List.all_cons, Bool.and_eq_true] at plain
    have first : Paired [c] := by
      obtain ⟨⟨⟨single, double⟩, backslash⟩, equals⟩ :
          ((c ≠ '\'' ∧ c ≠ '"') ∧ c ≠ '\\') ∧ c ≠ '=' := by simpa [isPlain] using plain.1
      constructor
      · simp [next?, single, double, backslash, equals, after?]
      · simp [next?, single, double, backslash, after?]
    exact first.append (ih plain.2)

/-- What is escaped reads the same on both sides, unless the reader gives up outside. -/
theorem after?_escaped (cs : List Char) :
    inside.after? (cs.flatMap escapedChar) = some inside ∧
      ∀ s, outside.after? (cs.flatMap escapedChar) = some s → s = outside := by
  induction cs with
  | nil => exact ⟨rfl, fun s same => (Option.some.inj same).symm⟩
  | cons c rest ih =>
    rw [List.flatMap_cons, after?_append, after?_append]
    rcases escapedChar_cases c with ⟨d, escaped, -⟩ | ⟨itself, plain, single, double⟩
    · rw [escaped]
      refine ⟨ih.1, fun s read => ?_⟩
      cases read
    · have through : inside.after? [c] = some inside := by
        simp [next?, plain, single, double, after?]
      rw [itself, through]
      refine ⟨ih.1, fun s read => ?_⟩
      obtain ⟨t, first, later⟩ := Option.bind_eq_some_iff.mp read
      have stays : t = outside := by
        simp only [after?_cons, next?, single, double, plain, or_self, if_false, false_or] at first
        split at first
        · cases first
        · exact (Option.some.inj first).symm
      exact ih.2 s (stays ▸ later)

theorem paired_enclosed {q : Char} (quote : q = '\'' ∨ q = '"') (cs : List Char) :
    Paired (q :: (cs.flatMap escapedChar ++ [q])) := by
  obtain ⟨within, without⟩ := after?_escaped cs
  have opening : outside.next? q = some inside := if_pos quote
  have closing : inside.next? q = some outside := by
    rcases quote with rfl | rfl <;> rfl
  constructor
  · rw [after?_cons, opening, Option.bind_some, after?_append, within, Option.bind_some,
      after?_cons, closing]
    rfl
  · intro s read
    rw [after?_cons, closing, Option.bind_some, after?_append] at read
    obtain ⟨t, first, last⟩ := Option.bind_eq_some_iff.mp read
    rw [without t first, after?_cons, opening] at last
    exact (Option.some.inj last).symm

theorem paired_intercalate {texts : List String} (h : ∀ t ∈ texts, Paired t.toList) :
    Paired (", ".intercalate texts).toList := by
  have comma : Paired (", " : String).toList := paired_of_plain (by decide)
  induction texts with
  | nil => exact .nil
  | cons t rest ih =>
    have first := h t List.mem_cons_self
    have others := ih fun u member => h u (List.mem_cons_of_mem _ member)
    cases rest with
    | nil => simpa using first
    | cons u rest =>
      rw [String.intercalate_cons_cons, String.toList_append, String.toList_append]
      exact (first.append comma).append others

theorem paired_numerals {t : String} (numerals : Numerals t) : Paired t.toList := by
  refine paired_of_plain (List.all_eq_true.mpr fun c member => ?_)
  have numeral := numerals c member
  have other (d : Char) (h : isNumeral d = false) : c ≠ d := by
    rintro rfl
    rw [numeral] at h
    cases h
  simp [isPlain, other '\'' (by decide), other '"' (by decide), other '\\' (by decide),
    other '=' (by decide)]

mutual

theorem paired_ofJson : ∀ v : Json, Paired (ofJson v).toList
  | .null | .bool true | .bool false => paired_of_plain (by decide)
  | .number n => paired_numerals (numerals_number n).2
  | .string t => by
    rw [ofJson_string_toList]
    exact paired_enclosed (Or.inl rfl) t.toList
  | .array items => by
    have opening : Paired ("[" : String).toList := paired_of_plain (by decide)
    have closing : Paired ("]" : String).toList := paired_of_plain (by decide)
    rw [ofJson, String.toList_append, String.toList_append]
    exact (opening.append (paired_intercalate (paired_ofItems items))).append closing
  | .object fields => by
    have opening : Paired ("\x7b" : String).toList := paired_of_plain (by decide)
    have closing : Paired ("\x7d" : String).toList := paired_of_plain (by decide)
    rw [ofJson, String.toList_append, String.toList_append]
    exact (opening.append (paired_intercalate (paired_ofFields fields))).append closing

theorem paired_ofItems : ∀ items : List Json, ∀ t ∈ ofItems items, Paired t.toList
  | [], _, member => by cases member
  | v :: rest, t, member => by
    rcases List.mem_cons.mp member with rfl | member
    · exact paired_ofJson v
    · exact paired_ofItems rest t member

theorem paired_ofFields : ∀ fields : List (String × Json), ∀ t ∈ ofFields fields, Paired t.toList
  | [], _, member => by cases member
  | (key, v) :: rest, t, member => by
    rcases List.mem_cons.mp member with rfl | member
    · have name : Paired (quotedKey key).toList := by
        have chars : (quotedKey key).toList = '"' :: (key.toList.flatMap escapedChar ++ ['"']) := by
          simp [quotedKey, escape]
        rw [chars]
        exact paired_enclosed (Or.inr rfl) key.toList
      have colon : Paired (": " : String).toList := paired_of_plain (by decide)
      rw [String.toList_append, String.toList_append]
      exact (name.append colon).append (paired_ofJson v)
    · exact paired_ofFields rest t member

end

/-! ### Equals signs -/

/-- What stands between a key and its value. -/
def equals : List Char := [' ', '=', ' ']

/-- An equals sign stands in a string, so what follows it to the end of a value is none. -/
theorem Paired.not_behind_equals {front cs : List Char} (whole : Paired (front ++ equals ++ cs))
    (own : Paired cs) : False := by
  have read := whole.outer
  rw [List.append_assoc, after?_append] at read
  obtain ⟨s, -, rest⟩ := Option.bind_eq_some_iff.mp read
  have behind : inside.after? cs = some outside := by
    cases s with
    | outside => cases rest
    | inside => exact rest
    | escaped => exact rest
  cases own.inner outside behind

theorem head?_ofJson_append (v : Json) (r : String) :
    (ofJson v ++ r).toList.head? ≠ some '=' := by
  obtain ⟨c, rest, chars, -⟩ := ofJson_opened v
  have read := (paired_ofJson v).outer
  rw [chars] at read
  rw [String.toList_append, chars]
  intro same
  cases same
  cases read

/-- Of two ways to cut a text at an equals sign, the later one leaves the sign of the earlier one in
front, unless the text goes on with another. -/
theorem eq_append_of_shorter {a b x y : List Char} (same : a ++ equals ++ x = b ++ equals ++ y)
    (shorter : a.length < b.length) (single : x.head? ≠ some '=') :
    ∃ w, b = a ++ equals ++ w ∧ x = w ++ equals ++ y := by
  rw [List.append_assoc, List.append_assoc] at same
  rcases List.append_eq_append_iff.mp same with ⟨c, rfl, rest⟩ | ⟨c, rfl, -⟩
  · match c with
    | [] => simp at shorter
    | [_] => simp [equals] at rest
    | [_, _] =>
      simp only [equals, List.cons_append, List.nil_append, List.cons.injEq, true_and] at rest
      rw [rest.2.2] at single
      exact absurd rfl single
    | _ :: _ :: _ :: w =>
      simp only [equals, List.cons_append, List.nil_append, List.cons.injEq] at rest
      obtain ⟨rfl, rfl, rfl, rfl⟩ := rest
      exact ⟨w, by simp [equals], by simp [equals]⟩
  · rw [List.length_append] at shorter
    omega

theorem cut_at_equals {a b x y : String} (same : a ++ " = " ++ x = b ++ " = " ++ y)
    (hx : x.toList.head? ≠ some '=') (hy : y.toList.head? ≠ some '=') :
    (a = b ∧ x = y) ∨
      (∃ w, b.toList = a.toList ++ equals ++ w ∧ x.toList = w ++ equals ++ y.toList) ∨
      ∃ w, a.toList = b.toList ++ equals ++ w ∧ y.toList = w ++ equals ++ x.toList := by
  have chars : a.toList ++ equals ++ x.toList = b.toList ++ equals ++ y.toList := by
    simpa [equals] using congrArg String.toList same
  rcases Nat.lt_trichotomy a.toList.length b.toList.length with shorter | level | longer
  · exact Or.inr (Or.inl (eq_append_of_shorter chars shorter hx))
  · rw [List.append_assoc, List.append_assoc] at chars
    obtain ⟨front, rest⟩ := List.append_inj chars level
    exact Or.inl ⟨String.toList_inj.mp front, String.toList_inj.mp (List.append_cancel_left rest)⟩
  · exact Or.inr (Or.inr (eq_append_of_shorter chars.symm longer hy))

/-- Two values behind equals signs at the end of one text are the same. -/
theorem last_value_eq {a b : String} {v w : Json}
    (same : a ++ " = " ++ ofJson v = b ++ " = " ++ ofJson w) : a = b ∧ ofJson v = ofJson w := by
  have head (v : Json) : (ofJson v).toList.head? ≠ some '=' := by
    simpa using head?_ofJson_append v ""
  rcases cut_at_equals same (head v) (head w) with cut | ⟨front, -, inside⟩ | ⟨front, -, inside⟩
  · exact cut
  · exact ((inside ▸ paired_ofJson v).not_behind_equals (paired_ofJson w)).elim
  · exact ((inside ▸ paired_ofJson w).not_behind_equals (paired_ofJson v)).elim

/-! ### Clauses -/

/-- The assignments of fields and a key behind them. -/
def leading (before : Json.Fields) (key : String) : String :=
  ", ".intercalate (before.map assignment ++ [key])

theorem intercalate_concat_append (texts : List String) (s t : String) :
    ", ".intercalate (texts ++ [s ++ t]) = ", ".intercalate (texts ++ [s]) ++ t := by
  induction texts with
  | nil => simp
  | cons u rest ih =>
    cases rest with
    | nil => simp [String.append_assoc]
    | cons v rest =>
      simp only [List.cons_append, String.intercalate_cons_cons] at ih ⊢
      rw [ih, String.append_assoc, String.append_assoc, String.append_assoc]

theorem assignments_concat (before : Json.Fields) (key : String) (v : Json) :
    assignments ⟨before ++ [(key, v)]⟩ = leading before key ++ " = " ++ ofJson v := by
  rw [assignments, List.map_append, List.map_singleton, assignment, String.append_assoc,
    intercalate_concat_append, ← String.append_assoc]
  rfl

theorem assignments_singleton (key : String) (v : Json) :
    assignments ⟨[(key, v)]⟩ = key ++ " = " ++ ofJson v := assignments_concat [] key v

/-- What stands behind the first assignment. -/
def furtherText : Json.Fields → String
  | [] => ""
  | f :: rest => ", " ++ assignments ⟨f :: rest⟩

theorem assignments_cons (key : String) (v : Json) (rest : Json.Fields) :
    assignments ⟨(key, v) :: rest⟩ = key ++ " = " ++ (ofJson v ++ furtherText rest) := by
  cases rest with
  | nil => simp [assignments, assignment, furtherText, String.append_assoc]
  | cons f rest => simp [assignments, assignment, furtherText, String.append_assoc]

theorem delimits_furtherText (rest : Json.Fields) : Delimits (furtherText rest).toList := by
  cases rest with
  | nil => trivial
  | cons f rest => simp [furtherText, Delimits]

theorem assignments_eq_empty_iff (d : Record) : assignments d = "" ↔ d.fields = [] := by
  obtain ⟨_ | ⟨⟨key, v⟩, rest⟩⟩ := d
  · simp [assignments]
  · simp [assignments_cons]

theorem assignments_eq_of_furtherText {a b : Json.Fields} (same : furtherText a = furtherText b) :
    assignments ⟨a⟩ = assignments ⟨b⟩ := by
  cases a <;> cases b <;> simp_all [furtherText]

/-! ### Keys that end where they seem to -/

/-- An equals sign between blanks, behind which a reader looks for a value. -/
def HoldsEquals (key : String) : Prop := equals <:+: key.toList

instance (key : String) : Decidable (HoldsEquals key) :=
  inferInstanceAs (Decidable (equals <:+: key.toList))

def PlainKeys (d : Record) : Prop := ∀ f ∈ d.fields, ¬ HoldsEquals f.1

instance (d : Record) : Decidable (PlainKeys d) := List.decidableBAll _ _

theorem key_eq_of_plain {j k : String} (plainJ : ¬ HoldsEquals j) (plainK : ¬ HoldsEquals k)
    {v w : Json} {r s : String}
    (same : j ++ " = " ++ (ofJson v ++ r) = k ++ " = " ++ (ofJson w ++ s)) :
    j = k ∧ ofJson v ++ r = ofJson w ++ s := by
  rcases cut_at_equals same (head?_ofJson_append v r) (head?_ofJson_append w s) with
    cut | ⟨rest, whole, -⟩ | ⟨rest, whole, -⟩
  · exact cut
  · exact absurd ⟨j.toList, rest, whole.symm⟩ plainK
  · exact absurd ⟨k.toList, rest, whole.symm⟩ plainJ

variable {S : Json.Number → Prop}

/-- A literal that delimiters end is not the front of another one. -/
theorem ofJson_append_inj (distinct : ∀ m n, S m → S n → m.text = n.text → m = n) {v w : Json}
    (hv : ∀ n ∈ numbers v, S n) (hw : ∀ n ∈ numbers w, S n) {r s : String}
    (dr : Delimits r.toList) (ds : Delimits s.toList) (same : ofJson v ++ r = ofJson w ++ s) :
    v = w ∧ r = s := by
  obtain ⟨number, reads⟩ := exists_number distinct
  have left := decode?_ofJson reads v hv r dr
  rw [same, decode?_ofJson reads w hw s ds] at left
  cases left
  exact ⟨rfl, rfl⟩

/-- All the numbers of a record are among some. -/
def NumbersIn (S : Json.Number → Prop) (fields : Json.Fields) : Prop :=
  ∀ f ∈ fields, ∀ n ∈ numbers f.2, S n

theorem eq_of_assignments_eq (distinct : ∀ m n, S m → S n → m.text = n.text → m = n)
    {d e : Json.Fields} (plainD : PlainKeys ⟨d⟩) (plainE : PlainKeys ⟨e⟩) (knownD : NumbersIn S d)
    (knownE : NumbersIn S e) (same : assignments ⟨d⟩ = assignments ⟨e⟩) : d = e := by
  induction d generalizing e with
  | nil => exact ((assignments_eq_empty_iff ⟨e⟩).mp same.symm).symm
  | cons f rest ih =>
    obtain ⟨j, v⟩ := f
    match e with
    | [] =>
      have none := (assignments_eq_empty_iff ⟨(j, v) :: rest⟩).mp same
      cases none
    | (k, w) :: others =>
      rw [assignments_cons, assignments_cons] at same
      obtain ⟨rfl, values⟩ := key_eq_of_plain (plainD (j, v) List.mem_cons_self)
        (plainE (k, w) List.mem_cons_self) same
      obtain ⟨rfl, further⟩ := ofJson_append_inj distinct (knownD _ List.mem_cons_self)
        (knownE _ List.mem_cons_self) (delimits_furtherText rest) (delimits_furtherText others)
        values
      have later := ih (fun f member => plainD f (List.mem_cons_of_mem _ member))
        (fun f member => plainE f (List.mem_cons_of_mem _ member))
        (fun f member => knownD f (List.mem_cons_of_mem _ member))
        (fun f member => knownE f (List.mem_cons_of_mem _ member))
        (assignments_eq_of_furtherText further)
      rw [later]

/-! ### Shared clauses -/

/-- The order that the client holds fields in. -/
def Ordered (fields : Json.Fields) : Prop := fields.Pairwise fun f g => f.1 < g.1

/-- A record of one field, whose key is what other fields are written as and the key of a last
one. -/
def Imitates (S : Json.Number → Prop) (d : Record) : Prop :=
  ∃ before key v, d.fields = [(leading before key, v)] ∧ before ≠ [] ∧
    Ordered (before ++ [(key, v)]) ∧ NumbersIn S before

theorem ofJson_inj (distinct : ∀ m n, S m → S n → m.text = n.text → m = n) {v w : Json}
    (hv : ∀ n ∈ numbers v, S n) (hw : ∀ n ∈ numbers w, S n) (same : ofJson v = ofJson w) : v = w :=
  (ofJson_append_inj distinct hv hw (r := "") (s := "") trivial trivial (by rw [same])).1

theorem assignments_leading (before : Json.Fields) (key : String) (v : Json) :
    assignments ⟨[(leading before key, v)]⟩ = assignments ⟨before ++ [(key, v)]⟩ := by
  rw [assignments_singleton, assignments_concat]

/-- A record of one field shares its clause with those that its key imitates, and no others. -/
theorem imitates_of_shared (distinct : ∀ m n, S m → S n → m.text = n.text → m = n)
    {name : String} {v : Json} {e : Record} (knownV : ∀ n ∈ numbers v, S n)
    (knownE : NumbersIn S e.fields) (ordered : Ordered e.fields) (other : e ≠ ⟨[(name, v)]⟩)
    (same : assignments e = assignments ⟨[(name, v)]⟩) : Imitates S ⟨[(name, v)]⟩ := by
  obtain ⟨fields⟩ := e
  rcases List.eq_nil_or_concat fields with rfl | ⟨before, ⟨key, w⟩, rfl⟩
  · have none := (assignments_eq_empty_iff ⟨[(name, v)]⟩).mp same.symm
    cases none
  · rw [List.concat_eq_append] at *
    rw [assignments_concat, assignments_singleton] at same
    obtain ⟨rfl, literal⟩ := last_value_eq same
    have knownW : ∀ n ∈ numbers w, S n := knownE (key, w) (by simp)
    obtain rfl := ofJson_inj distinct knownW knownV literal
    refine ⟨before, key, w, rfl, ?_, ordered, fun f member => ?_⟩
    · rintro rfl
      exact other rfl
    · exact knownE f (List.mem_append_left _ member)

theorem exists_other_iff (distinct : ∀ m n, S m → S n → m.text = n.text → m = n) {d : Record}
    (known : NumbersIn S d.fields) :
    (∃ e : Record, Ordered e.fields ∧ NumbersIn S e.fields ∧ e ≠ d ∧
      assignments e = assignments d) ↔ 2 ≤ d.fields.length ∨ Imitates S d := by
  constructor
  · rintro ⟨e, ordered, knownE, other, same⟩
    obtain ⟨fields⟩ := d
    match fields with
    | [] =>
      have none := (assignments_eq_empty_iff e).mp (same.trans rfl)
      exact absurd (congrArg Record.mk none) other
    | [(name, v)] =>
      exact Or.inr (imitates_of_shared distinct (known (name, v) List.mem_cons_self) knownE ordered
        other same)
    | _ :: _ :: _ => exact Or.inl (by simp)
  · rintro (several | ⟨before, key, v, single, some_field, ordered, knownBefore⟩)
    · -- All but the last value can be moved into one key.
      obtain ⟨fields⟩ := d
      rcases List.eq_nil_or_concat fields with rfl | ⟨before, ⟨key, v⟩, rfl⟩
      · simp at several
      · rw [List.concat_eq_append] at *
        refine ⟨⟨[(leading before key, v)]⟩, List.pairwise_singleton _ _, ?_, ?_,
          assignments_leading before key v⟩
        · intro f member
          cases List.mem_singleton.mp member
          exact known (key, v) (by simp)
        · intro same
          have count := congrArg (fun d => d.fields.length) same
          simp only [List.length_append, List.length_singleton] at count several
          omega
    · obtain ⟨fields⟩ := d
      cases single
      refine ⟨⟨before ++ [(key, v)]⟩, ordered, ?_, ?_, (assignments_leading before key v).symm⟩
      · intro f member
        rcases List.mem_append.mp member with member | member
        · exact knownBefore f member
        · cases List.mem_singleton.mp member
          exact known (leading before key, v) List.mem_cons_self
      · intro same
        have count := congrArg (fun d => d.fields.length) same
        have left := List.length_pos_iff.mpr some_field
        simp only [List.length_append, List.length_singleton] at count
        omega

/-! ### Statements -/

theorem setText_eq_iff (d e : Record) :
    Query.setText d = Query.setText e ↔ assignments d = assignments e := by
  have none (d : Record) := assignments_eq_empty_iff d
  unfold Query.setText
  by_cases hd : d.fields = [] <;> by_cases he : e.fields = []
  · simp [hd, he, (none d).mpr hd, (none e).mpr he]
  · have other : assignments e ≠ "" := mt (none e).mp he
    simp [hd, he, (none d).mpr hd, Ne.symm other]
  · have other : assignments d ≠ "" := mt (none d).mp hd
    simp [hd, he, (none e).mpr he, other]
  · simp [hd, he]

end RecordClient.Literal

namespace RecordClient

open Literal Plan

theorem Query.updateText_eq_iff (q : Query) (d e : Record) :
    q.updateText d = q.updateText e ↔ assignments d = assignments e := by
  rw [← setText_eq_iff]
  simp [Query.updateText]

theorem Link.text_eq_iff (source target : RecordId) (verb : String) (d e : Record) :
    Link.text ⟨source, verb, target, d⟩ = Link.text ⟨source, verb, target, e⟩ ↔
      assignments d = assignments e := by
  rw [← setText_eq_iff]
  simp [Link.text]

variable {σ α : Type}

/-- The calls that a plan makes. -/
def Plan.made (perform : Perform σ) (s : σ) (p : Plan α) : List Call :=
  (run perform p s).exchanges.map Prod.fst

namespace Query

theorem made_send (perform : Perform σ) (s : σ) {q : Query} (bound : q.bound = true)
    (text : String) : made perform s (q.send text) = [.query text] := by
  rw [send_of_bound bound]
  rfl

theorem made_update (perform : Perform σ) (s : σ) {q : Query} (bound : q.bound = true)
    (d : Record) : made perform s (q.update d.toJson) = [.query (q.updateText d)] :=
  made_send perform s bound (q.updateText d)

theorem made_relate (perform : Perform σ) (s : σ) {q : Query} (bound : q.bound = true)
    {source target : String} {a b : RecordId} (named : RecordId.parse (some source) none = .ok a)
    (other : RecordId.parse (some target) none = .ok b) (verb : String) (d : Record) :
    made perform s (q.relate source verb target (some d.toJson)) =
      [.query (Link.text ⟨a, verb, b, d⟩)] := by
  have sent : q.relate source verb target (some d.toJson) = q.send (Link.text ⟨a, verb, b, d⟩) :=
    relate_of_parse named other verb (some d)
  rw [sent, made_send perform s bound]

end Query

/-- Records whose keys hold no equals sign between blanks have assignments of their own. Any record
of two fields or more shares its assignments with another, such as that of one field whose key holds
all but the last value; a record of one field does so exactly when its key is of that kind. Updates
and links with other data send the same statement exactly when the data share their assignments. -/
theorem assignments_tell_apart (S : Json.Number → Prop)
    (distinct : ∀ m n, S m → S n → m.text = n.text → m = n) :
    (∀ d e : Record, PlainKeys d → PlainKeys e → NumbersIn S d.fields → NumbersIn S e.fields →
      assignments d = assignments e → d = e) ∧
    (∀ d : Record, NumbersIn S d.fields →
      ((∃ e : Record, Ordered e.fields ∧ NumbersIn S e.fields ∧ e ≠ d ∧
        assignments e = assignments d) ↔ 2 ≤ d.fields.length ∨ Imitates S d)) ∧
    (∀ {σ : Type} (perform : Perform σ) (s : σ) (q : Query), q.bound = true → ∀ d e : Record,
      (made perform s (q.update d.toJson) = made perform s (q.update e.toJson) ↔
        assignments d = assignments e) ∧
      ∀ source verb target a b, RecordId.parse (some source) none = .ok a →
        RecordId.parse (some target) none = .ok b →
        (made perform s (q.relate source verb target (some d.toJson)) =
            made perform s (q.relate source verb target (some e.toJson)) ↔
          assignments d = assignments e)) := by
  refine ⟨fun d e plainD plainE knownD knownE same => ?_,
    fun d known => exists_other_iff distinct known,
    fun perform s q bound d e => ⟨?_, fun source verb target a b named other => ?_⟩⟩
  · exact congrArg Record.mk (eq_of_assignments_eq distinct plainD plainE knownD knownE same)
  · rw [Query.made_update perform s bound, Query.made_update perform s bound,
      ← Query.updateText_eq_iff q d e]
    simp
  · rw [Query.made_relate perform s bound named other,
      Query.made_relate perform s bound named other, ← Link.text_eq_iff a b verb d e]
    simp

/-- A value that reads like an assignment. -/
def samplePair : Record := ⟨[("a", Json.ofNat 1), ("b", .string "x = 1, y")]⟩

def sampleOther : Record := ⟨[("a", Json.ofNat 1), ("c", .string "x = 1, y")]⟩

theorem samplePair_told_apart :
    assignments samplePair ≠ assignments sampleOther ∧
      (∃ e : Record, e ≠ samplePair ∧ assignments e = assignments samplePair) ∧
      made Recorder.perform ⟨[]⟩ ((Query.ofConnection "t").update samplePair.toJson) ≠
        made Recorder.perform ⟨[]⟩ ((Query.ofConnection "t").update sampleOther.toJson) := by
  obtain ⟨apart, shared, sent⟩ :=
    assignments_tell_apart (fun _ => True) fun _ _ _ _ => Json.Number.text_inj
  have known (r : Record) : NumbersIn (fun _ => True) r.fields := fun _ _ _ _ => trivial
  have other : assignments samplePair ≠ assignments sampleOther := by
    intro same
    have whole := apart samplePair sampleOther (by decide) (by decide) (known _) (known _) same
    exact absurd whole (by decide)
  obtain ⟨e, -, -, distinct, same⟩ := (shared samplePair (known _)).mpr (Or.inl (by decide))
  refine ⟨other, ⟨e, distinct, same⟩, ?_⟩
  exact mt ((sent Recorder.perform ⟨[]⟩ (.ofConnection "t") rfl samplePair sampleOther).1).mp other

/-- A key takes in an assignment: updates with two fields and with one send the same statement. -/
theorem key_takes_in_assignment :
    let two : Record := ⟨[("a", Json.ofNat 1), ("b", Json.ofNat 2)]⟩
    let one : Record := ⟨[("a = 1, b", Json.ofNat 2)]⟩
    two ≠ one ∧ assignments two = assignments one ∧
      made Recorder.perform ⟨[]⟩ ((Query.ofConnection "t").update two.toJson) =
        [.query "UPDATE t SET a = 1, b = 2"] ∧
      made Recorder.perform ⟨[]⟩ ((Query.ofConnection "t").update one.toJson) =
        [.query "UPDATE t SET a = 1, b = 2"] := by
  decide

end RecordClient
