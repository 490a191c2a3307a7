import Mathlib.Data.List.TakeWhile
import RecordClient.Json.Printer
import RecordClient.Proofs.Number.Shortest
/-!
# Numbers from their texts

`readDecimal` reads positional and scientific text. `readDecimal_text` shows that it finds the value
of a decimal in either, and `text_inj` that no two numbers share a text.
-/
namespace RecordClient

/-! ### Reading -/

/-- What stands before a character, and what stands behind it. -/
def cutAt (c : Char) (cs : List Char) : List Char × List Char :=
  (cs.takeWhile (· ≠ c), (cs.dropWhile (· ≠ c)).drop 1)

theorem cutAt_append {c : Char} {front : List Char} (absent : c ∉ front) (back : List Char) :
    cutAt c (front ++ c :: back) = (front, back) := by
  have pass : ∀ d ∈ front, decide (d ≠ c) = true :=
    fun d member => decide_eq_true (ne_of_mem_of_not_mem member absent)
  rw [cutAt, List.takeWhile_append_of_pos pass, List.dropWhile_append_of_pos pass]
  simp

theorem cutAt_of_not_mem {c : Char} {cs : List Char} (absent : c ∉ cs) : cutAt c cs = (cs, []) := by
  have pass : ∀ d ∈ cs, decide (d ≠ c) = true :=
    fun d member => decide_eq_true (ne_of_mem_of_not_mem member absent)
  rw [cutAt, List.takeWhile_eq_self_iff.mpr pass, List.dropWhile_eq_nil_iff.mpr pass]
  rfl

def readExponent : List Char → ℤ
  | '-' :: digits => -(Nat.ofDigitChars 10 digits 0 : ℤ)
  | '+' :: digits => Nat.ofDigitChars 10 digits 0
  | _ => 0

/-- The digits on both sides of a point, and how many are behind it. -/
def readMantissa (cs : List Char) : Nat × Nat :=
  let (whole, fraction) := cutAt '.' cs
  (Nat.ofDigitChars 10 (whole ++ fraction) 0, fraction.length)

def readDecimal (cs : List Char) : ℚ :=
  let (mantissa, exponent) := cutAt 'e' cs
  let (digits, places) := readMantissa mantissa
  digits * 10 ^ (readExponent exponent - places)

def Digits (cs : List Char) : Prop := ∀ c ∈ cs, c.isDigit = true

theorem Digits.append {cs ds : List Char} (hc : Digits cs) (hd : Digits ds) : Digits (cs ++ ds) :=
  List.forall_mem_append.mpr ⟨hc, hd⟩

theorem Digits.not_mem {cs : List Char} (h : Digits cs) {c : Char} (other : c.isDigit = false) :
    c ∉ cs := by
  intro member
  rw [h c member] at other
  cases other

theorem digits_toDigits (n : Nat) : Digits (Nat.toDigits 10 n) :=
  fun _ member => Nat.isDigit_of_mem_toDigits (by decide) (by decide) member

theorem digits_zeros (n : Nat) : Digits (List.replicate n '0') := by
  intro c member
  rw [List.eq_of_mem_replicate member]
  decide

theorem readMantissa_pointed {whole fraction : List Char} (hw : Digits whole) :
    readMantissa (whole ++ '.' :: fraction) =
      (Nat.ofDigitChars 10 (whole ++ fraction) 0, fraction.length) := by
  rw [readMantissa, cutAt_append (hw.not_mem (by decide))]

theorem readMantissa_digits {whole : List Char} (hw : Digits whole) :
    readMantissa whole = (Nat.ofDigitChars 10 whole 0, 0) := by
  rw [readMantissa, cutAt_of_not_mem (hw.not_mem (by decide))]
  simp only [List.append_nil, List.length_nil]

theorem readDecimal_positional {whole fraction : List Char} (hw : Digits whole)
    (hf : Digits fraction) :
    readDecimal (whole ++ '.' :: fraction) =
      Nat.ofDigitChars 10 (whole ++ fraction) 0 * 10 ^ (-(fraction.length : ℤ)) := by
  have unmarked : 'e' ∉ whole ++ '.' :: fraction := by
    simp [hw.not_mem (c := 'e') (by decide), hf.not_mem (c := 'e') (by decide)]
  rw [readDecimal, cutAt_of_not_mem unmarked]
  simp only [readMantissa_pointed hw, readExponent, zero_sub]

theorem readExponent_signed (e : ℤ) :
    readExponent ((if e < 0 then "-" else "+").toList ++ e.natAbs.repr.toList) = e := by
  rw [Nat.toList_repr]
  split
  · show -(Nat.ofDigitChars 10 (Nat.toDigits 10 e.natAbs) 0 : ℤ) = e
    rw [Nat.ofDigitChars_ten_toDigits]
    omega
  · show (Nat.ofDigitChars 10 (Nat.toDigits 10 e.natAbs) 0 : ℤ) = e
    rw [Nat.ofDigitChars_ten_toDigits]
    omega

theorem readDecimal_marked {mantissa : List Char} (unmarked : 'e' ∉ mantissa) (e : ℤ) :
    readDecimal (mantissa ++
        'e' :: ((if e < 0 then "-" else "+").toList ++ e.natAbs.repr.toList)) =
      (readMantissa mantissa).1 * 10 ^ (e - (readMantissa mantissa).2) := by
  rw [readDecimal, cutAt_append unmarked]
  simp only [readExponent_signed]

/-! ### Decimals -/

theorem ofDigitChars_zeros_append (k : Nat) (cs : List Char) :
    Nat.ofDigitChars 10 (List.replicate k '0' ++ cs) 0 = Nat.ofDigitChars 10 cs 0 := by
  rw [Nat.ofDigitChars_append, Nat.ofDigitChars_replicate_zero, Nat.mul_zero]

theorem ofDigitChars_append_zeros (cs : List Char) (k : Nat) :
    Nat.ofDigitChars 10 (cs ++ List.replicate k '0') 0 = Nat.ofDigitChars 10 cs 0 * 10 ^ k := by
  rw [Nat.ofDigitChars_append, Nat.ofDigitChars_replicate_zero, Nat.mul_comm]

namespace Decimal

/-- Positional text: the digits of a decimal and zeros, with the point where it belongs. -/
structure Placed (d : Decimal) (whole fraction : List Char) : Prop where
  some_digit : whole ≠ []
  whole_digits : Digits whole
  fraction_digits : Digits fraction
  places : ∃ k : Nat, Nat.ofDigitChars 10 (whole ++ fraction) 0 = d.digits * 10 ^ k ∧
    (k : ℤ) - fraction.length = d.point - digitCount d.digits

theorem positional_placed (d : Decimal) :
    ∃ whole fraction, Placed d whole fraction ∧ d.positional.toList = whole ++ '.' :: fraction := by
  have digits := digits_toDigits d.digits
  have front (k : Nat) : Digits ((Nat.toDigits 10 d.digits).take k) :=
    fun c member => digits c (List.take_subset k _ member)
  have back (k : Nat) : Digits ((Nat.toDigits 10 d.digits).drop k) :=
    fun c member => digits c (List.drop_subset k _ member)
  have count : (Nat.toDigits 10 d.digits).length = digitCount d.digits := rfl
  have some_digit := digitCount_pos d.digits
  unfold positional
  simp only [Nat.toList_repr]
  split
  · refine ⟨List.replicate 1 '0', List.replicate (-d.point).toNat '0' ++ Nat.toDigits 10 d.digits,
      ⟨by simp, digits_zeros 1, (digits_zeros _).append digits, 0, ?_, ?_⟩, by simp⟩
    · rw [ofDigitChars_zeros_append, ofDigitChars_zeros_append, Nat.ofDigitChars_ten_toDigits,
        Nat.pow_zero, Nat.mul_one]
    · rw [List.length_append, List.length_replicate, count]
      omega
  · split
    · refine ⟨(Nat.toDigits 10 d.digits).take d.point.toNat,
        (Nat.toDigits 10 d.digits).drop d.point.toNat, ⟨?_, front _, back _, 0, ?_, ?_⟩, by simp⟩
      · apply List.ne_nil_of_length_pos
        rw [List.length_take, count]
        omega
      · rw [List.take_append_drop, Nat.ofDigitChars_ten_toDigits, Nat.pow_zero, Nat.mul_one]
      · rw [List.length_drop, count]
        omega
    · refine ⟨Nat.toDigits 10 d.digits ++
        List.replicate (d.point.toNat - digitCount d.digits) '0', List.replicate 1 '0',
        ⟨by simp, digits.append (digits_zeros _), digits_zeros 1,
          d.point.toNat - digitCount d.digits + 1, ?_, ?_⟩, by simp⟩
      · rw [List.append_assoc, List.replicate_append_replicate, ofDigitChars_append_zeros,
          Nat.ofDigitChars_ten_toDigits]
      · rw [List.length_replicate]
        omega

/-- The digits of scientific text without its exponent. -/
def leading (d : Decimal) : List Char :=
  (Nat.toDigits 10 d.digits).take 1 ++
    if (Nat.toDigits 10 d.digits).drop 1 = [] then [] else '.' :: (Nat.toDigits 10 d.digits).drop 1

theorem readMantissa_leading (d : Decimal) :
    readMantissa d.leading = (d.digits, digitCount d.digits - 1) := by
  have digits := digits_toDigits d.digits
  have front : Digits ((Nat.toDigits 10 d.digits).take 1) :=
    fun c member => digits c (List.take_subset 1 _ member)
  have both := List.take_append_drop 1 (Nat.toDigits 10 d.digits)
  have behind := List.length_drop (i := 1) (l := Nat.toDigits 10 d.digits)
  unfold leading
  split
  · next none =>
    rw [none, List.append_nil] at both
    rw [none, List.length_nil] at behind
    rw [List.append_nil, readMantissa_digits front, both, Nat.ofDigitChars_ten_toDigits, behind]
    rfl
  · rw [readMantissa_pointed front, both, Nat.ofDigitChars_ten_toDigits, behind]
    rfl

theorem leading_unmarked (d : Decimal) : 'e' ∉ d.leading := by
  have digits := digits_toDigits d.digits
  have unmarked : 'e' ∉ Nat.toDigits 10 d.digits := digits.not_mem (by decide)
  unfold leading
  intro member
  rcases List.mem_append.mp member with whole | fraction
  · exact unmarked (List.take_subset 1 _ whole)
  · split at fraction
    · cases fraction
    · rcases List.mem_cons.mp fraction with point | fraction
      · cases point
      · exact unmarked (List.drop_subset 1 _ fraction)

theorem scientific_toList (d : Decimal) :
    d.scientific.toList = d.leading ++ 'e' :: ((if d.point - 1 < 0 then "-" else "+").toList ++
      (d.point - 1).natAbs.repr.toList) := by
  rw [scientific, leading, ← Nat.toList_repr]
  split <;> simp

theorem readDecimal_text (style : Style) (d : Decimal) :
    readDecimal (d.text style).toList = d.value := by
  unfold text
  split
  · obtain ⟨whole, fraction, placed, chars⟩ := d.positional_placed
    obtain ⟨k, all, places⟩ := placed.places
    rw [chars, readDecimal_positional placed.whole_digits placed.fraction_digits, all, value,
      ← places, zpow_sub₀ (by norm_num), zpow_neg]
    push_cast
    rw [zpow_natCast, mul_assoc]
    rfl
  · have some_digit := digitCount_pos d.digits
    have places : d.point - 1 - (digitCount d.digits - 1 : Nat) =
        d.point - digitCount d.digits := by
      omega
    rw [scientific_toList, readDecimal_marked d.leading_unmarked, readMantissa_leading, value,
      places]

theorem text_opened (style : Style) (d : Decimal) :
    ∃ c rest, (d.text style).toList = c :: rest ∧ c.isDigit = true := by
  unfold text
  split
  · obtain ⟨whole, fraction, placed, chars⟩ := d.positional_placed
    obtain ⟨c, rest, rfl⟩ := List.exists_cons_of_ne_nil placed.some_digit
    exact ⟨c, rest ++ '.' :: fraction, chars, placed.whole_digits c List.mem_cons_self⟩
  · obtain ⟨c, rest, digits⟩ :=
      List.exists_cons_of_ne_nil (Nat.toDigits_ne_nil (n := d.digits) (b := 10))
    rw [scientific_toList, leading, digits]
    exact ⟨c, _, rfl, digits_toDigits d.digits c (digits ▸ List.mem_cons_self)⟩

theorem text_not_digits (style : Style) (d : Decimal) : ¬ Digits (d.text style).toList := by
  intro digits
  unfold text at digits
  split at digits
  · obtain ⟨whole, fraction, -, chars⟩ := d.positional_placed
    rw [chars] at digits
    exact digits.not_mem (c := '.') (by decide) (by simp)
  · rw [scientific_toList] at digits
    exact digits.not_mem (c := 'e') (by decide) (by simp)

end Decimal

/-! ### Numbers -/

namespace Binary64

theorem eq_zero_of_significand {x : Binary64} (h : x.significand = 0) : x.unit = 0 := by
  by_contra some_unit
  have full := le_significand some_unit
  omega

theorem sizeText_opened (style : Decimal.Style) (x : Binary64) :
    ∃ c rest, (x.sizeText style).toList = c :: rest ∧ c.isDigit = true := by
  unfold sizeText
  split
  · exact ⟨'0', ['.', '0'], rfl, by decide⟩
  · exact x.shortest.text_opened style

theorem sizeText_not_digits (style : Decimal.Style) (x : Binary64) :
    ¬ Digits (x.sizeText style).toList := by
  unfold sizeText
  split
  · intro digits
    exact digits.not_mem (c := '.') (by decide) (by decide)
  · exact x.shortest.text_not_digits style

/-- The size of a text is the value of a decimal that rounds to the number, or zero. -/
theorem readDecimal_sizeText (style : Decimal.Style) (x : Binary64) :
    readDecimal (x.sizeText style).toList = if x.significand = 0 then 0 else x.shortest.value := by
  unfold sizeText
  split
  · show readDecimal (List.replicate 1 '0' ++ '.' :: List.replicate 1 '0') = 0
    rw [readDecimal_positional (digits_zeros 1) (digits_zeros 1), ofDigitChars_zeros_append]
    simp [Nat.ofDigitChars]
  · exact x.shortest.readDecimal_text style

theorem shortest_value_ne_zero {x : Binary64} (some_size : 0 < x.significand) :
    x.shortest.value ≠ 0 := by
  obtain ⟨⟨v, counts, inside⟩, -⟩ := shortest_spec some_size
  intro zero
  unfold Counts at counts
  rw [zero, zero_mul, eq_comm, Nat.cast_eq_zero] at counts
  have start := (between_of_accepts inside).1
  have some_part := quarter_pos x
  have bound : 2 * x.quarter ≤ x.low := by
    unfold low
    apply Nat.mul_le_mul_right
    split <;> omega
  omega

theorem eq_of_shortest_value {x y : Binary64} (hx : 0 < x.significand) (hy : 0 < y.significand)
    (sign : x.negative = y.negative) (same : x.shortest.value = y.shortest.value) : x = y := by
  obtain ⟨⟨v, countsX, insideX⟩, -⟩ := shortest_spec hx
  obtain ⟨⟨w, countsY, insideY⟩, -⟩ := shortest_spec hy
  unfold Counts at countsX countsY
  rw [same, countsY, Nat.cast_inj] at countsX
  rw [countsX] at insideY
  exact eq_of_accepts sign insideX insideY

theorem eq_of_sizeText {style : Decimal.Style} {x y : Binary64} (sign : x.negative = y.negative)
    (same : x.sizeText style = y.sizeText style) : x = y := by
  have values := congrArg (fun t => readDecimal t.toList) same
  simp only [readDecimal_sizeText] at values
  by_cases hx : x.significand = 0
  · by_cases hy : y.significand = 0
    · have unitX := eq_zero_of_significand hx
      have unitY := eq_zero_of_significand hy
      cases x
      cases y
      simp_all
    · rw [if_pos hx, if_neg hy] at values
      exact absurd values.symm (shortest_value_ne_zero (by omega))
  · by_cases hy : y.significand = 0
    · rw [if_neg hx, if_pos hy] at values
      exact absurd values (shortest_value_ne_zero (by omega))
    · rw [if_neg hx, if_neg hy] at values
      exact eq_of_shortest_value (by omega) (by omega) sign values

theorem text_toList (style : Decimal.Style) (x : Binary64) :
    (x.text style).toList = (if x.negative then ['-'] else []) ++ (x.sizeText style).toList := by
  rw [text, String.toList_append]
  cases x.negative <;> rfl

theorem text_inj {style : Decimal.Style} {x y : Binary64} (same : x.text style = y.text style) :
    x = y := by
  have chars := congrArg String.toList same
  obtain ⟨c, rest, openedX, digitX⟩ := sizeText_opened style x
  obtain ⟨d, rest', openedY, digitY⟩ := sizeText_opened style y
  rw [text_toList, text_toList] at chars
  cases hx : x.negative <;> cases hy : y.negative <;> rw [hx, hy] at chars
  · exact eq_of_sizeText (hx.trans hy.symm) (String.toList_inj.mp (by simpa using chars))
  · rw [openedX, openedY] at chars
    cases chars
    cases digitX
  · rw [openedX, openedY] at chars
    cases chars
    cases digitY
  · exact eq_of_sizeText (hx.trans hy.symm) (String.toList_inj.mp (by simpa using chars))

end Binary64

theorem int_toList (i : ℤ) :
    i.repr.toList = (if i < 0 then ['-'] else []) ++ Nat.toDigits 10 i.natAbs := by
  rw [Int.repr_eq_if]
  split
  · have size : i.toNat = i.natAbs := by omega
    rw [if_neg (by omega), Nat.toList_repr, List.nil_append, size]
  · have size : (-i).toNat = i.natAbs := by omega
    rw [if_pos (by omega), String.toList_append, Nat.toList_repr, size]
    rfl

theorem int_repr_inj {i j : ℤ} (same : i.repr = j.repr) : i = j := by
  have chars := congrArg String.toList same
  rw [int_toList, int_toList] at chars
  have unsigned (n : Nat) : '-' ∉ Nat.toDigits 10 n := (digits_toDigits n).not_mem (by decide)
  have sizes {m n : Nat} (digits : Nat.toDigits 10 m = Nat.toDigits 10 n) : m = n := by
    simpa using congrArg (fun cs => Nat.ofDigitChars 10 cs 0) digits
  by_cases hi : i < 0 <;> by_cases hj : j < 0 <;> simp only [hi, hj, ↓reduceIte] at chars
  · have size := sizes (List.cons.inj chars).2
    omega
  · have inside : '-' ∈ [] ++ Nat.toDigits 10 j.natAbs := chars ▸ List.mem_cons_self
    exact absurd inside (unsigned _)
  · have inside : '-' ∈ [] ++ Nat.toDigits 10 i.natAbs := chars ▸ List.mem_cons_self
    exact absurd inside (unsigned _)
  · have size := sizes chars
    omega

theorem float_text_ne_int (style : Decimal.Style) (x : Binary64) (i : ℤ) :
    x.text style ≠ i.repr := by
  intro same
  obtain ⟨c, rest, opened, digit⟩ := x.sizeText_opened style
  have plain := digits_toDigits i.natAbs
  have size : (x.sizeText style).toList ≠ Nat.toDigits 10 i.natAbs := by
    intro digits
    exact x.sizeText_not_digits style (digits ▸ plain)
  have chars := congrArg String.toList same
  rw [Binary64.text_toList, int_toList] at chars
  cases hx : x.negative <;> by_cases hi : i < 0 <;> simp only [hx, hi, ↓reduceIte] at chars
  · rw [opened] at chars
    cases chars
    cases digit
  · exact size chars
  · exact size (List.cons.inj chars).2
  · have inside : '-' ∈ [] ++ Nat.toDigits 10 i.natAbs := chars ▸ List.mem_cons_self
    exact plain.not_mem (by decide) inside

/-- No two numbers share a text. -/
theorem Json.Number.text_inj {m n : Json.Number} (same : m.text = n.text) : m = n := by
  cases m with
  | int i =>
    cases n with
    | int j => exact congrArg Number.int (int_repr_inj same)
    | float y => exact absurd same.symm (float_text_ne_int Json.decimalStyle y i)
  | float x =>
    cases n with
    | int j => exact absurd same (float_text_ne_int Json.decimalStyle x j)
    | float y => exact congrArg Number.float (Binary64.text_inj same)

/-- The number nearest to a tenth. -/
def Binary64.tenth : Binary64 := ⟨false, 7205759403792794, 1018, by decide, by decide, by decide⟩

example : Binary64.ofDecimal false 1 (-1) = some .tenth ∧
    Binary64.tenth.text Json.decimalStyle = "0.1" := by
  decide +kernel

end RecordClient
