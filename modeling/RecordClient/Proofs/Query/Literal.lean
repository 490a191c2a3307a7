import RecordClient.Query.Literal
import RecordClient.Proofs.Number.Text
/-!
# Reading literals back

`decode?` reads a literal from the front of a text. `ofJson_decodes` shows that it finds every
value again behind which a statement goes on with a delimiter, whatever the strings and keys hold.
-/
namespace RecordClient.Literal

/-! ### Numbers -/

def isNumeral (c : Char) : Bool := c.isDigit || ['+', '-', '.', 'e'].contains c

def Numerals (t : String) : Prop := ∀ c ∈ t.toList, isNumeral c = true

instance (t : String) : Decidable (Numerals t) :=
  List.decidableBAll _ _

theorem Numerals.append {s t : String} (hs : Numerals s) (ht : Numerals t) : Numerals (s ++ t) := by
  unfold Numerals
  rw [String.toList_append]
  exact List.forall_mem_append.mpr ⟨hs, ht⟩

theorem Numerals.part {s : String} (hs : Numerals s) {cs : List Char} (h : cs ⊆ s.toList) :
    Numerals (String.ofList cs) := by
  intro c member
  rw [String.toList_ofList] at member
  exact hs c (h member)

theorem numerals_repr (n : Nat) : Numerals n.repr := by
  intro c member
  rw [Nat.toList_repr] at member
  have digit : c.isDigit = true := Nat.isDigit_of_mem_toDigits (by decide) (by decide) member
  simp [isNumeral, digit]

theorem numerals_zeros (n : Nat) : Numerals (String.ofList (List.replicate n '0')) := by
  intro c member
  rw [String.toList_ofList] at member
  rw [List.eq_of_mem_replicate member]
  decide

theorem numerals_positional (d : Decimal) : Numerals d.positional := by
  have digits := numerals_repr d.digits
  have front (k : Nat) := digits.part (List.take_subset k d.digits.repr.toList)
  have back (k : Nat) := digits.part (List.drop_subset k d.digits.repr.toList)
  have zero_point : Numerals "0." := by decide
  have point : Numerals "." := by decide
  have point_zero : Numerals ".0" := by decide
  unfold Decimal.positional
  dsimp only
  split
  · exact (zero_point.append (numerals_zeros _)).append digits
  · split
    · exact ((front _).append point).append (back _)
    · exact (digits.append (numerals_zeros _)).append point_zero

theorem numerals_scientific (d : Decimal) : Numerals d.scientific := by
  have digits := numerals_repr d.digits
  have front := digits.part (List.take_subset 1 d.digits.repr.toList)
  have back := digits.part (List.drop_subset 1 d.digits.repr.toList)
  have point : Numerals "." := by decide
  have mark : Numerals "e" := by decide
  have fraction : Numerals (if d.digits.repr.toList.drop 1 = [] then ""
      else "." ++ String.ofList (d.digits.repr.toList.drop 1)) := by
    split
    · decide
    · exact point.append back
  have sign : Numerals (if d.point - 1 < 0 then "-" else "+") := by
    split <;> decide
  exact (((front.append fraction).append mark).append sign).append (numerals_repr _)

theorem numerals_decimal (style : Decimal.Style) (d : Decimal) : Numerals (d.text style) := by
  unfold Decimal.text
  split
  · exact numerals_positional d
  · exact numerals_scientific d

theorem decimal_ne_empty (style : Decimal.Style) (d : Decimal) : d.text style ≠ "" := by
  unfold Decimal.text
  split
  · unfold Decimal.positional
    dsimp only
    split
    · simp
    · split <;> simp
  · simp [Decimal.scientific]

theorem numerals_number (n : Json.Number) : n.text ≠ "" ∧ Numerals n.text := by
  cases n with
  | int value =>
    rw [Json.Number.text, Int.repr_eq_if]
    split
    · exact ⟨Nat.repr_ne_empty, numerals_repr _⟩
    · have minus : Numerals "-" := by decide
      exact ⟨by simp, minus.append (numerals_repr _)⟩
  | float value =>
    have sign : Numerals (if value.negative then "-" else "") := by
      split <;> decide
    have size : value.sizeText Json.decimalStyle ≠ "" ∧
        Numerals (value.sizeText Json.decimalStyle) := by
      unfold Binary64.sizeText
      split
      · decide
      · exact ⟨decimal_ne_empty _ _, numerals_decimal _ _⟩
    rw [Json.Number.text, Binary64.text]
    exact ⟨by simp [size.1], sign.append size.2⟩

/-! ### Quotes -/

def unescaped? : Char → Option Char
  | '0' => some '\x00'
  | '\\' => some '\\'
  | 'n' => some '\n'
  | 'r' => some '\r'
  | 'Z' => some '\x1a'
  | '\'' => some '\''
  | '"' => some '"'
  | _ => none

/-- The characters that escaped ones stand for. -/
def unescape? : List Char → Option (List Char)
  | [] => some []
  | '\\' :: d :: rest => do some ((← unescaped? d) :: (← unescape? rest))
  | c :: rest => if c = '\\' then none else (unescape? rest).map (c :: ·)

/-- What stands before the first quote that no backslash escapes, and what stands behind it. -/
def untilQuote (q : Char) : List Char → Option (List Char × List Char)
  | [] => none
  | '\\' :: d :: rest => (untilQuote q rest).map fun (t, r) => ('\\' :: d :: t, r)
  | c :: rest =>
    if c = q then some ([], rest) else (untilQuote q rest).map fun (t, r) => (c :: t, r)

/-- Whether there is a quote that no backslash escapes. -/
def hasBareQuote : List Char → Bool
  | [] => false
  | '\\' :: _ :: rest => hasBareQuote rest
  | c :: rest => c = '\'' || c = '"' || hasBareQuote rest

/-- A character is escaped with a backslash, or it stands for itself and is neither a backslash nor
a quote. -/
theorem escapedChar_cases (c : Char) :
    (∃ d, escapedChar c = ['\\', d] ∧ unescaped? d = some c) ∨
      (escapedChar c = [c] ∧ c ≠ '\\' ∧ c ≠ '\'' ∧ c ≠ '"') := by
  unfold escapedChar
  split
  · exact Or.inl ⟨'0', rfl, rfl⟩
  · exact Or.inl ⟨'\\', rfl, rfl⟩
  · exact Or.inl ⟨'n', rfl, rfl⟩
  · exact Or.inl ⟨'r', rfl, rfl⟩
  · exact Or.inl ⟨'Z', rfl, rfl⟩
  · exact Or.inl ⟨'\'', rfl, rfl⟩
  · exact Or.inl ⟨'"', rfl, rfl⟩
  · next backslash _ _ _ single double => exact Or.inr ⟨rfl, backslash, single, double⟩

theorem unescape?_cons {c : Char} (h : c ≠ '\\') (rest : List Char) :
    unescape? (c :: rest) = (unescape? rest).map (c :: ·) := by
  rw [unescape?]
  · exact if_neg h
  · intro d more same _
    exact h same

theorem untilQuote_cons {q c : Char} (h : c ≠ '\\') (other : c ≠ q) (rest : List Char) :
    untilQuote q (c :: rest) = (untilQuote q rest).map fun (t, r) => (c :: t, r) := by
  rw [untilQuote]
  · exact if_neg other
  · intro d more same _
    exact h same

theorem hasBareQuote_cons {c : Char} (h : c ≠ '\\') (single : c ≠ '\'') (double : c ≠ '"')
    (rest : List Char) : hasBareQuote (c :: rest) = hasBareQuote rest := by
  rw [hasBareQuote]
  · simp [single, double]
  · intro d more same _
    exact h same

theorem unescape?_escaped (cs : List Char) : unescape? (cs.flatMap escapedChar) = some cs := by
  induction cs with
  | nil => rfl
  | cons c rest ih =>
    rw [List.flatMap_cons]
    rcases escapedChar_cases c with ⟨d, escaped, back⟩ | ⟨itself, plain, -, -⟩
    · simp only [escaped, List.cons_append, List.nil_append]
      rw [unescape?, back, ih]
      rfl
    · rw [itself, List.singleton_append, unescape?_cons plain, ih]
      rfl

theorem untilQuote_escaped {q : Char} (quote : q = '\'' ∨ q = '"') (cs rest : List Char) :
    untilQuote q (cs.flatMap escapedChar ++ q :: rest) = some (cs.flatMap escapedChar, rest) := by
  induction cs with
  | nil =>
    rw [List.flatMap_nil, List.nil_append, untilQuote]
    · exact if_pos rfl
    · intro d more same _
      rcases quote with rfl | rfl <;> cases same
  | cons c cs ih =>
    rw [List.flatMap_cons]
    rcases escapedChar_cases c with ⟨d, escaped, -⟩ | ⟨itself, plain, single, double⟩
    · simp only [escaped, List.cons_append, List.nil_append]
      rw [untilQuote, ih]
      rfl
    · have other : c ≠ q := by
        rcases quote with rfl | rfl
        · exact single
        · exact double
      rw [itself, List.singleton_append, List.cons_append, untilQuote_cons plain other, ih]
      rfl

theorem hasBareQuote_escaped (cs : List Char) : hasBareQuote (cs.flatMap escapedChar) = false := by
  induction cs with
  | nil => rfl
  | cons c cs ih =>
    rw [List.flatMap_cons]
    rcases escapedChar_cases c with ⟨d, escaped, -⟩ | ⟨itself, plain, single, double⟩
    · simp only [escaped, List.cons_append, List.nil_append]
      rw [hasBareQuote, ih]
    · rw [itself, List.singleton_append, hasBareQuote_cons plain single double, ih]

theorem escape_toList (t : String) : (escape t).toList = t.toList.flatMap escapedChar := by
  rw [escape, String.toList_ofList]

theorem escape_injective : Function.Injective escape := by
  intro s t same
  have back := unescape?_escaped s.toList
  rw [← escape_toList, same, escape_toList, unescape?_escaped] at back
  exact (String.toList_inj.mp (Option.some.inj back)).symm

/-! ### Values -/

def readQuoted (q : Char) (cs : List Char) : Option (String × List Char) := do
  let (raw, rest) ← untilQuote q cs
  some (String.ofList (← unescape? raw), rest)

/-- Reads a list of at least one item up to the bracket that closes it. -/
def readItems {α : Type} (read : List Char → Option (α × List Char)) (closing : Char) :
    Nat → List Char → Option (List α × List Char)
  | 0, _ => none
  | fuel + 1, cs => do
    match ← read cs with
    | (x, ',' :: ' ' :: rest) =>
      let (more, rest) ← readItems read closing fuel rest
      some (x :: more, rest)
    | (x, c :: rest) => if c = closing then some ([x], rest) else none
    | (_, []) => none

def readList {α : Type} (read : List Char → Option (α × List Char)) (closing : Char) (fuel : Nat)
    (cs : List Char) : Option (List α × List Char) :=
  if cs.head? = some closing then some ([], cs.tail) else readItems read closing fuel cs

def readField (read : List Char → Option (Json × List Char)) :
    List Char → Option ((String × Json) × List Char)
  | '"' :: cs => do
    match ← readQuoted '"' cs with
    | (key, ':' :: ' ' :: rest) =>
      let (v, rest) ← read rest
      some ((key, v), rest)
    | _ => none
  | _ => none

def readWord (word : List Char) (v : Json) (cs : List Char) : Option (Json × List Char) :=
  if word.isPrefixOf cs then some (v, cs.drop word.length) else none

/-- Reads a value; `number` reads the texts of numbers. -/
def readValue (number : String → Option Json.Number) : Nat → List Char → Option (Json × List Char)
  | 0, _ => none
  | fuel + 1, cs =>
    match cs with
    | 'N' :: _ => readWord ['N', 'U', 'L', 'L'] .null cs
    | 't' :: _ => readWord ['t', 'r', 'u', 'e'] (.bool true) cs
    | 'f' :: _ => readWord ['f', 'a', 'l', 's', 'e'] (.bool false) cs
    | '\'' :: cs => (readQuoted '\'' cs).map fun (t, rest) => (.string t, rest)
    | '[' :: cs =>
      (readList (readValue number fuel) ']' fuel cs).map fun (items, rest) => (.array items, rest)
    | '\x7b' :: cs =>
      (readList (readField (readValue number fuel)) '\x7d' fuel cs).map fun (fields, rest) =>
        (.object fields, rest)
    | cs =>
      (number (String.ofList (cs.takeWhile isNumeral))).map fun n =>
        (.number n, cs.dropWhile isNumeral)

/-- The value at the front of a text, and the text behind it. -/
def decode? (number : String → Option Json.Number) (t : String) : Option (Json × String) :=
  (readValue number t.toList.length t.toList).map fun (v, rest) => (v, String.ofList rest)

mutual

def numbers : Json → List Json.Number
  | .null | .bool _ | .string _ => []
  | .number n => [n]
  | .array items => numbersOfItems items
  | .object fields => numbersOfFields fields

def numbersOfItems : List Json → List Json.Number
  | [] => []
  | v :: rest => numbers v ++ numbersOfItems rest

def numbersOfFields : List (String × Json) → List Json.Number
  | [] => []
  | (_, v) :: rest => numbers v ++ numbersOfFields rest

end

/-- What a statement can go on with behind a value: nothing, or a character that ends it. -/
def Delimits : List Char → Prop
  | [] => True
  | c :: _ => c ∈ [' ', ',', ')', ']', '\x7d']

instance : DecidablePred Delimits
  | [] => inferInstanceAs (Decidable True)
  | c :: _ => inferInstanceAs (Decidable (c ∈ [' ', ',', ')', ']', '\x7d']))

/-! ### Layout -/

def following (closing : Char) : List (List Char) → List Char
  | [] => [closing]
  | t :: rest => ',' :: ' ' :: (t ++ following closing rest)

def listText (closing : Char) : List (List Char) → List Char
  | [] => [closing]
  | t :: rest => t ++ following closing rest

theorem listText_intercalate (closing : Char) (texts : List String) :
    (", ".intercalate texts).toList ++ [closing] = listText closing (texts.map String.toList) := by
  cases texts with
  | nil => simp [listText]
  | cons t rest =>
    rw [List.map_cons, listText]
    induction rest generalizing t with
    | nil => simp [following]
    | cons u rest ih =>
      rw [String.intercalate_cons_cons, String.toList_append, List.append_assoc, ih]
      simp [following]

theorem length_le_following (closing : Char) (texts : List (List Char)) :
    texts.length < (following closing texts).length := by
  induction texts with
  | nil => simp [following]
  | cons t rest ih => simp only [following, List.length_cons, List.length_append]; omega

theorem length_lt_listText (closing : Char) (texts : List (List Char)) :
    texts.length ≤ (listText closing texts).length ∧
      ∀ t ∈ texts, t.length < (listText closing texts).length := by
  have inside (texts : List (List Char)) :
      ∀ t ∈ texts, t.length < (following closing texts).length := by
    induction texts with
    | nil => simp
    | cons u rest ih =>
      intro t member
      simp only [following, List.length_cons, List.length_append]
      rcases List.mem_cons.mp member with rfl | member
      · omega
      · have := ih t member
        omega
  cases texts with
  | nil => simp [listText]
  | cons u rest =>
    have count := length_le_following closing rest
    rw [listText, List.length_append, List.length_cons]
    refine ⟨by omega, fun t member => ?_⟩
    rcases List.mem_cons.mp member with rfl | member
    · omega
    · have := inside rest t member
      omega

theorem ofItems_eq_map (items : List Json) : ofItems items = items.map ofJson := by
  induction items with
  | nil => rfl
  | cons v rest ih => rw [ofItems, ih, List.map_cons]

def ofField (field : String × Json) : String := quotedKey field.1 ++ ": " ++ ofJson field.2

theorem ofFields_eq_map (fields : List (String × Json)) : ofFields fields = fields.map ofField := by
  induction fields with
  | nil => rfl
  | cons field rest ih => rw [ofFields, ih, List.map_cons, ofField]

theorem ofJson_string_toList (t : String) :
    (ofJson (.string t)).toList = '\'' :: (t.toList.flatMap escapedChar ++ ['\'']) := by
  simp [ofJson, quote, escape]

theorem ofField_toList (field : String × Json) :
    (ofField field).toList =
      '"' :: (field.1.toList.flatMap escapedChar ++
        '"' :: ':' :: ' ' :: (ofJson field.2).toList) := by
  simp [ofField, quotedKey, escape]

theorem ofJson_array_toList (items : List Json) :
    (ofJson (.array items)).toList =
      '[' :: listText ']' (items.map fun v => (ofJson v).toList) := by
  have layout := listText_intercalate ']' (items.map ofJson)
  rw [List.map_map] at layout
  rw [ofJson, ofItems_eq_map, String.toList_append, String.toList_append]
  exact congrArg ('[' :: ·) layout

theorem ofJson_object_toList (fields : List (String × Json)) :
    (ofJson (.object fields)).toList =
      '\x7b' :: listText '\x7d' (fields.map fun field => (ofField field).toList) := by
  have layout := listText_intercalate '\x7d' (fields.map ofField)
  rw [List.map_map] at layout
  rw [ofJson, ofFields_eq_map, String.toList_append, String.toList_append]
  exact congrArg ('\x7b' :: ·) layout

/-! ### Reading what was written -/

theorem delimits_following {closing : Char} (bracket : closing = ']' ∨ closing = '\x7d')
    (texts : List (List Char)) (r : List Char) : Delimits (following closing texts ++ r) := by
  cases texts with
  | nil => rcases bracket with rfl | rfl <;> simp [Delimits, following]
  | cons t rest => simp [Delimits, following]

theorem readItems_following {α : Type} {read : List Char → Option (α × List Char)}
    {closing : Char} (bracket : closing = ']' ∨ closing = '\x7d') (text : α → List Char)
    (x : α) (xs : List α) (fuel : Nat) (bound : xs.length < fuel)
    (back : ∀ y ∈ x :: xs, ∀ r, Delimits r → read (text y ++ r) = some (y, r)) (r : List Char) :
    readItems read closing fuel (text x ++ (following closing (xs.map text) ++ r)) =
      some (x :: xs, r) := by
  induction xs generalizing x fuel with
  | nil =>
    obtain ⟨fuel, rfl⟩ := Nat.exists_eq_succ_of_ne_zero (Nat.ne_of_gt bound)
    rw [readItems, back x List.mem_cons_self _ (delimits_following bracket _ r)]
    rcases bracket with rfl | rfl <;> rfl
  | cons y ys ih =>
    obtain ⟨fuel, rfl⟩ := Nat.exists_eq_succ_of_ne_zero (Nat.ne_of_gt (Nat.zero_lt_of_lt bound))
    have rest := ih y fuel (by simpa using bound) fun z member =>
      back z (List.mem_cons_of_mem _ member)
    rw [readItems, back x List.mem_cons_self _ (delimits_following bracket _ r)]
    simp only [List.map_cons, following, List.cons_append, List.append_assoc, bind, Option.bind,
      rest]

theorem readList_listText {α : Type} {read : List Char → Option (α × List Char)}
    {closing : Char} (bracket : closing = ']' ∨ closing = '\x7d') (text : α → List Char)
    (xs : List α) (fuel : Nat) (bound : xs.length ≤ fuel)
    (opened : ∀ x ∈ xs, ∃ c rest, text x = c :: rest ∧ c ≠ closing)
    (back : ∀ y ∈ xs, ∀ r, Delimits r → read (text y ++ r) = some (y, r)) (r : List Char) :
    readList read closing fuel (listText closing (xs.map text) ++ r) = some (xs, r) := by
  cases xs with
  | nil => simp [readList, listText]
  | cons x xs =>
    obtain ⟨c, rest, starts, other⟩ := opened x List.mem_cons_self
    have items := readItems_following bracket text x xs fuel bound back r
    rw [List.map_cons, listText, List.append_assoc, readList, if_neg, items]
    rw [starts]
    simpa using other

theorem readQuoted_escaped {q : Char} (quote : q = '\'' ∨ q = '"') (t : String)
    (rest : List Char) :
    readQuoted q (t.toList.flatMap escapedChar ++ q :: rest) = some (t, rest) := by
  rw [readQuoted, untilQuote_escaped quote]
  simp [unescape?_escaped]

theorem readField_ofField {read : List Char → Option (Json × List Char)} (key : String) (v : Json)
    {r : List Char} (back : read ((ofJson v).toList ++ r) = some (v, r)) :
    readField read ((ofField (key, v)).toList ++ r) = some ((key, v), r) := by
  rw [ofField_toList, List.cons_append, List.append_assoc, List.cons_append, readField,
    readQuoted_escaped (Or.inr rfl)]
  simp [back]

theorem readValue_numeral {number : String → Option Json.Number} {c : Char}
    (h : isNumeral c = true) (fuel : Nat) (cs : List Char) :
    readValue number (fuel + 1) (c :: cs) =
      (number (String.ofList ((c :: cs).takeWhile isNumeral))).map fun n =>
        (.number n, (c :: cs).dropWhile isNumeral) := by
  rw [readValue]
  all_goals
    intro rest same
    cases same
    exact absurd h (by decide)

theorem Delimits.takeWhile {r : List Char} (d : Delimits r) :
    r.takeWhile isNumeral = [] ∧ r.dropWhile isNumeral = r := by
  cases r with
  | nil => exact ⟨rfl, rfl⟩
  | cons c rest =>
    have ended : isNumeral c = false := by
      simp only [Delimits, List.mem_cons, List.not_mem_nil, or_false] at d
      rcases d with rfl | rfl | rfl | rfl | rfl <;> decide
    simp [ended]

theorem readValue_number {number : String → Option Json.Number} {n : Json.Number}
    (reads : number n.text = some n) (fuel : Nat) {r : List Char} (d : Delimits r) :
    readValue number (fuel + 1) (n.text.toList ++ r) = some (.number n, r) := by
  obtain ⟨some_text, numerals⟩ := numerals_number n
  have ends : (n.text.toList ++ r).takeWhile isNumeral = n.text.toList ∧
      (n.text.toList ++ r).dropWhile isNumeral = r := by
    rw [List.takeWhile_append_of_pos numerals, List.dropWhile_append_of_pos numerals,
      d.takeWhile.1, d.takeWhile.2, List.append_nil]
    exact ⟨rfl, rfl⟩
  cases chars : n.text.toList with
  | nil => exact absurd (String.toList_eq_nil_iff.mp chars) some_text
  | cons c rest =>
    have first : isNumeral c = true := numerals c (chars ▸ List.mem_cons_self)
    rw [chars] at ends
    rw [List.cons_append, readValue_numeral first, ← List.cons_append, ends.1, ends.2, ← chars,
      String.ofList_toList, reads]
    rfl

theorem ofJson_opened (v : Json) : ∃ c rest, (ofJson v).toList = c :: rest ∧ c ≠ ']' := by
  cases v with
  | null => exact ⟨'N', _, rfl, by decide⟩
  | bool b =>
    cases b
    · exact ⟨'f', _, rfl, by decide⟩
    · exact ⟨'t', _, rfl, by decide⟩
  | number n =>
    obtain ⟨some_text, numerals⟩ := numerals_number n
    cases chars : n.text.toList with
    | nil => exact absurd (String.toList_eq_nil_iff.mp chars) some_text
    | cons c rest =>
      refine ⟨c, rest, chars, ?_⟩
      rintro rfl
      exact absurd (numerals ']' (chars ▸ List.mem_cons_self)) (by decide)
  | string t => exact ⟨'\'', _, ofJson_string_toList t, by decide⟩
  | array items => exact ⟨'[', _, ofJson_array_toList items, by decide⟩
  | object fields => exact ⟨'\x7b', _, ofJson_object_toList fields, by decide⟩

theorem numbersOfItems_eq_flatMap (items : List Json) :
    numbersOfItems items = items.flatMap numbers := by
  induction items with
  | nil => rfl
  | cons v rest ih => rw [numbersOfItems, ih, List.flatMap_cons]

theorem numbersOfFields_eq_flatMap (fields : List (String × Json)) :
    numbersOfFields fields = fields.flatMap fun field => numbers field.2 := by
  induction fields with
  | nil => rfl
  | cons field rest ih => rw [numbersOfFields, ih, List.flatMap_cons]

/-- A value is read back from the front of a text, with fuel for the characters of its literal. -/
theorem readValue_ofJson {S : Json.Number → Prop} {number : String → Option Json.Number}
    (reads : ∀ n, S n → number n.text = some n) (fuel : Nat) (v : Json)
    (known : ∀ n ∈ numbers v, S n) (bound : (ofJson v).toList.length ≤ fuel) (r : List Char)
    (d : Delimits r) : readValue number fuel ((ofJson v).toList ++ r) = some (v, r) := by
  -- On the fuel: an item of a list has fewer characters than the list.
  induction fuel generalizing v r with
  | zero =>
    obtain ⟨c, rest, starts, -⟩ := ofJson_opened v
    rw [starts] at bound
    cases bound
  | succ fuel ih =>
    cases v with
    | null => rfl
    | bool b => cases b <;> rfl
    | number n => exact readValue_number (reads n (known n List.mem_cons_self)) fuel d
    | string t =>
      rw [ofJson_string_toList, List.cons_append, List.append_assoc, readValue]
      rw [List.singleton_append, readQuoted_escaped (Or.inl rfl)]
      rfl
    | array items =>
      rw [ofJson_array_toList] at bound ⊢
      rw [List.length_cons] at bound
      have sizes := length_lt_listText ']' (items.map fun v => (ofJson v).toList)
      rw [List.length_map] at sizes
      have back : ∀ v ∈ items, ∀ r, Delimits r →
          readValue number fuel ((ofJson v).toList ++ r) = some (v, r) := by
        intro v member r d
        have shorter := sizes.2 _ (List.mem_map_of_mem member)
        refine ih v (fun n inside => known n ?_) (by omega) r d
        rw [numbers, numbersOfItems_eq_flatMap]
        exact List.mem_flatMap_of_mem member inside
      rw [List.cons_append, readValue, readList_listText (Or.inl rfl) _ items fuel (by omega)
        (fun v _ => ofJson_opened v) back]
      rfl
    | object fields =>
      rw [ofJson_object_toList] at bound ⊢
      rw [List.length_cons] at bound
      have sizes := length_lt_listText '\x7d' (fields.map fun field => (ofField field).toList)
      rw [List.length_map] at sizes
      have back : ∀ field ∈ fields, ∀ r, Delimits r →
          readField (readValue number fuel) ((ofField field).toList ++ r) = some (field, r) := by
        intro field member r d
        have shorter := sizes.2 _ (List.mem_map_of_mem member)
        rw [ofField_toList, List.length_cons, List.length_append] at shorter
        simp only [List.length_cons] at shorter
        refine readField_ofField field.1 field.2 (ih field.2 (fun n inside => known n ?_) (by omega)
          r d)
        rw [numbers, numbersOfFields_eq_flatMap]
        exact List.mem_flatMap_of_mem member inside
      rw [List.cons_append, readValue, readList_listText (Or.inr rfl) _ fields fuel (by omega)
        (fun field _ => ⟨'"', _, ofField_toList field, by decide⟩) back]
      rfl

theorem decode?_ofJson {S : Json.Number → Prop} {number : String → Option Json.Number}
    (reads : ∀ n, S n → number n.text = some n) (v : Json) (known : ∀ n ∈ numbers v, S n)
    (r : String) (d : Delimits r.toList) : decode? number (ofJson v ++ r) = some (v, r) := by
  have bound : (ofJson v).toList.length ≤ (ofJson v ++ r).toList.length := by
    rw [String.toList_append, List.length_append]
    omega
  have back := readValue_ofJson reads _ v known bound r.toList d
  rw [decode?, String.toList_append] at *
  rw [back]
  simp

theorem exists_number {S : Json.Number → Prop}
    (distinct : ∀ m n, S m → S n → m.text = n.text → m = n) :
    ∃ number : String → Option Json.Number, ∀ n, S n → number n.text = some n := by
  classical
  refine ⟨fun t => if h : ∃ n, S n ∧ n.text = t then some h.choose else none, fun n member => ?_⟩
  have found : ∃ m, S m ∧ m.text = n.text := ⟨n, member, rfl⟩
  dsimp only
  rw [dif_pos found, distinct found.choose n found.choose_spec.1 member found.choose_spec.2]

/-- Literals are read back, whatever their strings and keys hold, where the numbers among them are
told apart by their texts: a decoder finds the value at the front of a statement and leaves the
rest of it, so no two values share a literal and none ends within another. Escaping loses nothing,
leaves no quote bare, and its quotes end where the text does. -/
theorem ofJson_decodes (S : Json.Number → Prop)
    (distinct : ∀ m n, S m → S n → m.text = n.text → m = n) :
    (∃ number : String → Option Json.Number,
      ∀ v : Json, (∀ n ∈ numbers v, S n) → ∀ r : String, Delimits r.toList →
        decode? number (ofJson v ++ r) = some (v, r)) ∧
    (∀ v w : Json, (∀ n ∈ numbers v, S n) → (∀ n ∈ numbers w, S n) →
      ofJson v = ofJson w → v = w) ∧
    (∀ v w : Json, (∀ n ∈ numbers v, S n) → (∀ n ∈ numbers w, S n) →
      ∀ r s : String, Delimits r.toList → Delimits s.toList →
        ofJson v ++ r = ofJson w ++ s → v = w ∧ r = s) ∧
    Function.Injective escape ∧
    (∀ t : String, hasBareQuote (escape t).toList = false) ∧
    (∀ (t : String) (rest : List Char), ∀ q ∈ ['\'', '"'],
      untilQuote q ((escape t).toList ++ q :: rest) = some ((escape t).toList, rest)) := by
  obtain ⟨number, reads⟩ := exists_number distinct
  have delimited : ∀ v w : Json, (∀ n ∈ numbers v, S n) → (∀ n ∈ numbers w, S n) →
      ∀ r s : String, Delimits r.toList → Delimits s.toList →
        ofJson v ++ r = ofJson w ++ s → v = w ∧ r = s := by
    intro v w hv hw r s dr ds same
    have left := decode?_ofJson reads v hv r dr
    rw [same, decode?_ofJson reads w hw s ds] at left
    cases left
    exact ⟨rfl, rfl⟩
  refine ⟨⟨number, fun v known r d => decode?_ofJson reads v known r d⟩, ?_, delimited,
    escape_injective, ?_, ?_⟩
  · intro v w hv hw same
    exact (delimited v w hv hw "" "" (by decide) (by decide) (by rw [same])).1
  · intro t
    rw [escape_toList]
    exact hasBareQuote_escaped t.toList
  · intro t rest q quote
    rw [escape_toList]
    exact untilQuote_escaped (by simpa using quote) t.toList rest

def sampleValue : Json :=
  .array [.string "it's \\", .object [("a\"b", Json.ofNat 10)], .number (.float .tenth), .null]

/-- All numbers are told apart by their texts. -/
theorem sampleValue_decodes :
    (∃ number : String → Option Json.Number,
      decode? number (ofJson sampleValue ++ " CONTAINS c") = some (sampleValue, " CONTAINS c")) ∧
    (ofJson sampleValue = ofJson (.string "it's") → sampleValue = .string "it's") ∧
    (ofJson sampleValue ++ ", 1" = ofJson .null ++ ")" → sampleValue = .null ∧ ", 1" = ")") := by
  have all := ofJson_decodes (fun _ => True) fun _ _ _ _ => Json.Number.text_inj
  have known : ∀ v : Json, ∀ n ∈ numbers v, True := fun _ _ _ => trivial
  obtain ⟨number, back⟩ := all.1
  exact ⟨⟨number, back sampleValue (known _) " CONTAINS c" (by decide)⟩,
    all.2.1 sampleValue (.string "it's") (known _) (known _),
    all.2.2.1 sampleValue .null (known _) (known _) ", 1" ")" (by decide) (by decide)⟩

end RecordClient.Literal
