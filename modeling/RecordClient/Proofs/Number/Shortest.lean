import Mathlib.Algebra.Order.Field.Power
import Mathlib.Algebra.Order.Field.Rat
import Mathlib.Tactic.NormNum
import Mathlib.Tactic.Positivity
import Mathlib.Tactic.Ring
import RecordClient.Proofs.Number.Rounding
/-!
# The shortest decimal

`shortest_spec` shows that the search for a decimal comes to one that rounds to the number, and that
none with fewer digits does.
-/
namespace RecordClient

/-! ### Digits -/

theorem digitCount_pos (n : Nat) : 0 < digitCount n := Nat.length_toDigits_pos

theorem digitCount_le_iff {n k : Nat} (some_digit : 0 < k) : digitCount n ≤ k ↔ n < 10 ^ k :=
  Nat.length_toDigits_le_iff (by decide) some_digit

theorem lt_pow_digitCount (n : Nat) : n < 10 ^ digitCount n :=
  (digitCount_le_iff (digitCount_pos n)).mp (Nat.le_refl _)

theorem digitCount_one : digitCount 1 = 1 := by decide

theorem lt_digitCount_iff {n k : Nat} (some_size : 0 < n) : k < digitCount n ↔ 10 ^ k ≤ n := by
  cases k with
  | zero => exact ⟨fun _ => some_size, fun _ => digitCount_pos n⟩
  | succ k =>
    rw [← Nat.not_le, digitCount_le_iff (Nat.succ_pos k), Nat.not_lt]

def Decimal.value (d : Decimal) : ℚ := d.digits * 10 ^ (d.point - digitCount d.digits)

namespace Binary64

variable {x : Binary64}

/-! ### Grids -/

theorem step_pos (x : Binary64) (count : Nat) : 0 < x.step count :=
  Nat.pow_pos (by decide)

theorem twenty_four_le_decimalPlaces : 24 ≤ decimalPlaces := by
  unfold decimalPlaces binaryPlaces
  omega

theorem middle_pos (some_size : 0 < x.significand) : 0 < x.middle :=
  Nat.mul_pos (by omega) (quarter_pos x)

theorem accepts_middle (some_size : 0 < x.significand) : x.accepts x.middle = true := by
  have some_part := quarter_pos x
  have size := middle_pos some_size
  have start := low_le x
  have ends := high_eq x
  exact accepts_of_between (by omega) (by omega)

/-- A number has more digits than are ever asked for. -/
theorem seventeen_le_digitCount (some_size : 0 < x.significand) : 17 ≤ digitCount x.middle := by
  apply (lt_digitCount_iff (middle_pos some_size)).mpr
  calc 10 ^ 16 ≤ 1 * (1 * 5 ^ 24) := by decide
    _ ≤ 4 * x.significand * (2 ^ x.unit * 5 ^ decimalPlaces) :=
      Nat.mul_le_mul (by omega) (Nat.mul_le_mul Nat.one_le_two_pow
        (Nat.pow_le_pow_right (by decide) twenty_four_le_decimalPlaces))

theorem step_mul {count : Nat} (few : count ≤ digitCount x.middle) :
    x.step count * 10 ^ count = 10 ^ digitCount x.middle := by
  rw [step_eq, ← Nat.pow_add, Nat.sub_add_cancel few]

theorem floor_lt {count : Nat} (few : count ≤ digitCount x.middle) :
    x.middle / x.step count < 10 ^ count := by
  rw [Nat.div_lt_iff_lt_mul (step_pos x count), Nat.mul_comm, step_mul few]
  exact lt_pow_digitCount x.middle

theorem mul_step_le (some_size : 0 < x.significand) {count : Nat}
    (few : count + 1 ≤ digitCount x.middle) : 10 ^ count * x.step (count + 1) ≤ x.middle := by
  have same : 10 ^ count * x.step (count + 1) = 10 ^ (digitCount x.middle - 1) := by
    rw [step_eq, ← Nat.pow_add]
    congr 1
    omega
  rw [same]
  have some_digit := digitCount_pos x.middle
  exact (lt_digitCount_iff (middle_pos some_size)).mp (by omega)

theorem accepts_of_convex {u v w : Nat} (hu : x.accepts u = true) (hw : x.accepts w = true)
    (above : u ≤ v) (below : v ≤ w) : x.accepts v = true := by
  unfold accepts at *
  split at hu <;> simp_all only [↓reduceIte, Bool.and_eq_true, decide_eq_true_eq] <;> omega

/-- Digits that a search may find: those below and above the number. -/
def Around (x : Binary64) (count k : Nat) : Prop :=
  k = x.middle / x.step count ∨ k = x.middle / x.step count + 1

theorem around_nearest (x : Binary64) (count : Nat) : x.Around count (x.nearest count) :=
  (nearestNat_cases x.middle (x.step count)).imp And.left And.left

theorem around_opposite (x : Binary64) (count : Nat) : x.Around count (x.opposite count) := by
  unfold opposite
  dsimp only
  split
  · exact Or.inr rfl
  · exact Or.inl rfl

/-- Digits around a number are the nearest or the opposite ones. -/
theorem Around.cases {count k : Nat} (h : x.Around count k) :
    k = x.nearest count ∨ k = x.opposite count := by
  unfold opposite
  dsimp only
  rcases around_nearest x count with same | same
  · rw [if_pos same, same]
    exact h
  · rw [if_neg (by omega), same]
    exact h.symm

/-- Where any multiple of a step rounds back, one of those around the number does. -/
theorem exists_around (some_size : 0 < x.significand) {count k : Nat}
    (h : x.accepts (k * x.step count) = true) :
    ∃ j, x.Around count j ∧ x.accepts (j * x.step count) = true := by
  have inside := accepts_middle some_size
  have some_part := step_pos x count
  have floor := Nat.div_mul_le_self x.middle (x.step count)
  have ceiling := Nat.lt_mul_of_div_lt (Nat.lt_add_one (x.middle / x.step count)) some_part
  rcases Nat.lt_or_ge (x.middle / x.step count) k with more | less
  · exact ⟨_, Or.inr rfl, accepts_of_convex inside h (Nat.le_of_lt ceiling)
      (Nat.mul_le_mul_right _ more)⟩
  · exact ⟨_, Or.inl rfl, accepts_of_convex h inside (Nat.mul_le_mul_right _ less) floor⟩

theorem withDigits?_eq_some {count k : Nat} (h : x.withDigits? count = some k) :
    x.Around count k ∧ x.accepts (k * x.step count) = true := by
  unfold withDigits? at h
  split at h
  · next inside =>
    cases h
    exact ⟨around_nearest x count, inside⟩
  · split at h
    · next inside =>
      cases h
      exact ⟨around_opposite x count, inside⟩
    · cases h

theorem withDigits?_eq_none (some_size : 0 < x.significand) {count : Nat}
    (h : x.withDigits? count = none) (k : Nat) : x.accepts (k * x.step count) ≠ true := by
  intro inside
  unfold withDigits? at h
  split at h
  · cases h
  · next near =>
    split at h
    · cases h
    · next far =>
      obtain ⟨j, around, found⟩ := exists_around some_size inside
      rcases around.cases with rfl | rfl
      · exact near found
      · exact far found

/-! ### The search -/

/-- A step of seventeen digits is less than the way to the nearer end of the interval. -/
theorem accepts_nearest_seventeen (some_size : 0 < x.significand) :
    x.accepts (x.nearest 17 * x.step 17) = true := by
  have short := x.significand_lt
  have some_part := quarter_pos x
  have size : 10 ^ 16 * x.step 17 ≤ x.middle :=
    mul_step_le some_size (seventeen_le_digitCount some_size)
  have split_middle := Nat.div_add_mod x.middle (x.step 17)
  rw [Nat.mul_comm] at split_middle
  have near : 2 * (x.nearest 17 * x.step 17) ≤ 2 * x.middle + x.step 17 ∧
      2 * x.middle ≤ 2 * (x.nearest 17 * x.step 17) + x.step 17 := by
    have left := Nat.mod_lt x.middle (step_pos x 17)
    rcases nearestNat_cases x.middle (x.step 17) with ⟨same, small⟩ | ⟨same, large⟩
    · rw [nearest, same]
      omega
    · rw [nearest, same, Nat.add_mul]
      omega
  have ends := high_eq x
  by_cases power : x.significand = 2 ^ 52 ∧ x.unit ≠ 0
  · have start := low_le x
    rw [middle, power.1] at size near start ends
    exact accepts_of_between (by omega) (by omega)
  · have start := low_of_not_power power
    have bound : 4 * x.significand * x.quarter ≤ (2 ^ 55 - 4) * x.quarter :=
      Nat.mul_le_mul_right _ (by omega)
    have few : 4 * x.quarter ≤ 4 * x.significand * x.quarter :=
      Nat.mul_le_mul_right _ (by omega)
    rw [middle] at size near start ends
    exact accepts_of_between (by omega) (by omega)

/-- What a search comes to: digits around the number that round back to it, and no fewer do. -/
structure Hit (x : Binary64) (first count k : Nat) : Prop where
  around : x.Around count k
  inside : x.accepts (k * x.step count) = true
  fewest : ∀ c, first ≤ c → c < count → ∀ j, x.accepts (j * x.step c) ≠ true

theorem shortestFrom_spec (some_size : 0 < x.significand) (first left : Nat)
    (last : first + left = 17) :
    ∃ count k, first ≤ count ∧ count ≤ 17 ∧ Hit x first count k ∧
      x.shortestFrom first left = x.decimal count k := by
  induction left generalizing first with
  | zero =>
    obtain rfl : first = 17 := last
    exact ⟨17, x.nearest 17, Nat.le_refl _, Nat.le_refl _,
      ⟨around_nearest x 17, accepts_nearest_seventeen some_size, fun c _ _ => by omega⟩, rfl⟩
  | succ left ih =>
    rw [shortestFrom]
    cases found : x.withDigits? first with
    | some k =>
      obtain ⟨around, inside⟩ := withDigits?_eq_some found
      exact ⟨first, k, Nat.le_refl _, by omega, ⟨around, inside, fun c _ _ => by omega⟩, rfl⟩
    | none =>
      obtain ⟨count, k, later, few, hit, same⟩ := ih (first + 1) (by omega)
      refine ⟨count, k, by omega, few, ⟨hit.around, hit.inside, ?_⟩, same⟩
      intro c above below
      rcases Nat.eq_or_lt_of_le above with rfl | above
      · exact withDigits?_eq_none some_size found
      · exact hit.fewest c above below

/-! ### Values -/

/-- A decimal stands for a number of least places. -/
def Counts (d : Decimal) (v : Nat) : Prop := d.value * 10 ^ decimalPlaces = v

theorem Around.bounds (some_size : 0 < x.significand) {count k : Nat}
    (few : count + 1 ≤ digitCount x.middle) (h : x.Around (count + 1) k) :
    10 ^ count ≤ k ∧ k ≤ 10 ^ (count + 1) := by
  have below := (Nat.le_div_iff_mul_le (step_pos x (count + 1))).mpr (mul_step_le some_size few)
  have above := floor_lt few
  rcases h with same | same <;> omega

theorem counts_decimal {count k : Nat} (few : count + 1 ≤ digitCount x.middle)
    (lower : 10 ^ count ≤ k) (upper : k ≤ 10 ^ (count + 1)) :
    Counts (x.decimal (count + 1) k) (k * x.step (count + 1)) := by
  have ten : (10 : ℚ) ≠ 0 := by norm_num
  have place (n : Nat) : ((10 ^ n : Nat) : ℚ) = 10 ^ (n : ℤ) := by
    rw [Nat.cast_pow, zpow_natCast]
    rfl
  unfold Counts Decimal.value decimal
  simp only [Nat.pow_eq]
  split
  · next full =>
    show ((1 : Nat) : ℚ) * 10 ^ ((digitCount x.middle : ℤ) - decimalPlaces + 1 - digitCount 1) *
      10 ^ decimalPlaces = _
    rw [full, Nat.mul_comm, step_mul few, digitCount_one, Nat.cast_one, one_mul, ← zpow_natCast,
      ← zpow_add₀ ten, place]
    congr 1
    omega
  · next short =>
    have digits : digitCount k = count + 1 := by
      apply Nat.le_antisymm
      · exact (digitCount_le_iff (Nat.succ_pos count)).mpr (Nat.lt_of_le_of_ne upper short)
      · exact (lt_digitCount_iff (Nat.lt_of_lt_of_le (Nat.pow_pos (by decide)) lower)).mpr lower
    show (k : ℚ) * 10 ^ ((digitCount x.middle : ℤ) - decimalPlaces - digitCount k) *
      10 ^ decimalPlaces = _
    rw [digits, mul_assoc, ← zpow_natCast, ← zpow_add₀ ten, Nat.cast_mul, step_eq, place]
    congr 2
    omega

theorem digitCount_decimal {count k : Nat} (some_digit : 0 < count) (upper : k ≤ 10 ^ count) :
    digitCount (x.decimal count k).digits ≤ count := by
  unfold decimal
  split
  · show digitCount 1 ≤ count
    rw [digitCount_one]
    exact some_digit
  · next short =>
    exact (digitCount_le_iff some_digit).mpr (Nat.lt_of_le_of_ne upper short)

/-- A decimal that rounds to a number shows that a multiple of the step of its digits does. -/
theorem exists_multiple (some_size : 0 < x.significand) {d : Decimal} {v : Nat} (same : Counts d v)
    (few : digitCount d.digits ≤ digitCount x.middle) (inside : x.accepts v = true) :
    ∃ j, x.accepts (j * x.step (digitCount d.digits)) = true := by
  have ten : (10 : ℚ) ≠ 0 := by norm_num
  have some_digit := digitCount_pos d.digits
  obtain ⟨count, digits⟩ : ∃ c, digitCount d.digits = c + 1 := ⟨digitCount d.digits - 1, by omega⟩
  unfold Counts Decimal.value at same
  rw [mul_assoc, ← zpow_natCast, ← zpow_add₀ ten] at same
  rw [digits] at same few ⊢
  by_cases high : (digitCount x.middle : ℤ) - (count + 1) ≤
      d.point - (count + 1 : Nat) + decimalPlaces
  · -- The last digit of the decimal stands before the last one of the grid.
    obtain ⟨n, further⟩ := Int.le.dest high
    refine ⟨d.digits * 10 ^ n, ?_⟩
    have whole : d.digits * 10 ^ n * x.step (count + 1) = v := by
      rw [← Nat.cast_inj (R := ℚ), ← same, step_eq, mul_assoc, ← pow_add, ← further]
      push_cast
      rw [← zpow_natCast]
      congr 2
      push_cast
      omega
    rw [whole]
    exact inside
  · -- The decimal is less than the power of ten below the number, which lies between the two.
    have size := mul_step_le some_size few
    refine ⟨10 ^ count, accepts_of_convex inside (accepts_middle some_size) ?_ size⟩
    rw [← Nat.cast_le (α := ℚ), ← same, step_eq, ← pow_add]
    have small : (d.digits : ℚ) ≤ 10 ^ ((count + 1 : Nat) : ℤ) := by
      rw [zpow_natCast, ← digits]
      exact_mod_cast Nat.le_of_lt (lt_pow_digitCount d.digits)
    calc (d.digits : ℚ) * 10 ^ (d.point - (count + 1 : Nat) + decimalPlaces)
        ≤ 10 ^ ((count + 1 : Nat) : ℤ) * 10 ^ (d.point - (count + 1 : Nat) + decimalPlaces) :=
          mul_le_mul_of_nonneg_right small (by positivity)
      _ = 10 ^ (d.point + decimalPlaces) := by
          rw [← zpow_add₀ ten]
          congr 1
          omega
      _ ≤ 10 ^ ((count + (digitCount x.middle - (count + 1)) : Nat) : ℤ) :=
          zpow_le_zpow_right₀ (by norm_num) (by omega)
      _ = _ := by
          rw [zpow_natCast, Nat.cast_pow]
          rfl

/-- The shortest decimal of a positive number rounds to it, and what rounds to it has as many digits
or more. -/
theorem shortest_spec (some_size : 0 < x.significand) :
    (∃ v, Counts x.shortest v ∧ x.accepts v = true) ∧
      ∀ d v, Counts d v → x.accepts v = true →
        digitCount x.shortest.digits ≤ digitCount d.digits := by
  obtain ⟨count, k, some_digit, few, hit, found⟩ := shortestFrom_spec some_size 1 16 rfl
  obtain ⟨count, rfl⟩ : ∃ c, count = c + 1 := ⟨count - 1, by omega⟩
  have fits := Nat.le_trans few (seventeen_le_digitCount some_size)
  obtain ⟨lower, upper⟩ := hit.around.bounds some_size fits
  rw [shortest, found]
  refine ⟨⟨_, counts_decimal fits lower upper, hit.inside⟩, fun d v same inside => ?_⟩
  by_contra fewer
  have most : digitCount (x.decimal (count + 1) k).digits ≤ count + 1 :=
    digitCount_decimal some_digit upper
  obtain ⟨j, multiple⟩ := exists_multiple some_size same (by omega) inside
  exact hit.fewest _ (digitCount_pos d.digits) (by omega) j multiple

end Binary64

end RecordClient
