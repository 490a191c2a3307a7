import Mathlib.Tactic.Ring
import RecordClient.Number.Shortest
/-!
# Rounding

`round_of_accepts` shows that a number is what everything between the ends of its interval is
rounded to, so the intervals of two numbers are apart.
-/
namespace RecordClient.Binary64

theorem significand_lt (x : Binary64) : x.significand < 2 ^ 53 := x.short

theorem le_significand {x : Binary64} (h : x.unit ≠ 0) : 2 ^ 52 ≤ x.significand := x.full h

theorem quarter_eq (x : Binary64) : x.quarter = 2 ^ x.unit * 5 ^ decimalPlaces := by
  rw [quarter, Nat.pow_eq, Nat.pow_eq]

theorem low_eq (x : Binary64) :
    x.low =
      (4 * x.significand - if x.significand = 2 ^ 52 ∧ x.unit ≠ 0 then 1 else 2) * x.quarter := by
  rw [low, Nat.pow_eq]

theorem step_eq (x : Binary64) (count : Nat) :
    x.step count = 10 ^ (digitCount x.middle - count) := by
  rw [step, Nat.pow_eq]

/-- The multiple within half a step, the even one where two are. -/
theorem nearestNat_eq {num den k : Nat} (above : 2 * (k * den) ≤ 2 * num + den)
    (below : 2 * num ≤ 2 * (k * den) + den)
    (tie : k % 2 = 1 → 2 * (k * den) < 2 * num + den ∧ 2 * num < 2 * (k * den) + den)
    (some_part : 0 < den) : nearestNat num den = k := by
  have whole := Nat.div_add_mod num den
  have left := Nat.mod_lt num some_part
  rw [Nat.mul_comm] at whole
  have sides : k = num / den ∨ k = num / den + 1 := by
    rcases Nat.lt_trichotomy k (num / den) with less | same | more
    · have := Nat.mul_le_mul_right den less
      rw [Nat.succ_mul] at this
      omega
    · exact Or.inl same
    · by_contra far
      have := Nat.mul_le_mul_right den (show num / den + 2 ≤ k by omega)
      rw [Nat.add_mul] at this
      omega
  unfold nearestNat
  dsimp only
  rcases sides with rfl | rfl
  · split
    · rfl
    · split <;> omega
  · rw [Nat.add_mul] at above below tie
    split
    · omega
    · split <;> omega

theorem nearestNat_mul (num den : Nat) {factor : Nat} (some_factor : 0 < factor) :
    nearestNat (num * factor) (den * factor) = nearestNat num den := by
  have left (m n : Nat) : m * factor < n * factor ↔ m < n := Nat.mul_lt_mul_right some_factor
  unfold nearestNat
  simp only [Nat.mul_div_mul_right _ _ some_factor, Nat.mul_mod_mul_right, ← Nat.mul_assoc, left]

theorem fittingUnit_eq {num den u : Nat} (some_part : 0 < den) (small : num < den * 2 ^ (u + 53))
    (large : u ≠ 0 → den * 2 ^ (u + 52) ≤ num) : fittingUnit num den = u := by
  have above : num < den * 2 ^ (fittingUnit num den + 53) := lt_of_fittingUnit some_part
  have below : fittingUnit num den ≠ 0 → den * 2 ^ (fittingUnit num den + 52) ≤ num :=
    le_of_fittingUnit
  have apart {v w : Nat} (less : v < w) : den * 2 ^ (v + 53) ≤ den * 2 ^ (w + 52) :=
    Nat.mul_le_mul_left den (Nat.pow_le_pow_right (by decide) (by omega))
  rcases Nat.lt_trichotomy (fittingUnit num den) u with less | same | more
  · have := apart less
    have := large (by omega)
    omega
  · exact same
  · have := apart more
    have := below (by omega)
    omega

variable {x : Binary64}

theorem round_eq {num den : Nat} (some_part : 0 < den)
    (unit : fittingUnit (num * unitsInOne) den = x.unit)
    (significand : nearestNat (num * unitsInOne) (den * 2 ^ x.unit) = x.significand) :
    round x.negative num den some_part = some x := by
  have short := x.significand_lt
  unfold round
  dsimp only
  simp only [Nat.pow_eq, unit, significand]
  rw [dif_neg (by omega), dif_pos x.bounded]

theorem round_eq_of_carry {num den u : Nat} (some_part : 0 < den)
    (unit : fittingUnit (num * unitsInOne) den = u) (next : x.unit = u + 1)
    (carry : nearestNat (num * unitsInOne) (den * 2 ^ u) = 2 ^ 53)
    (significand : x.significand = 2 ^ 52) : round x.negative num den some_part = some x := by
  have bounded : u + 1 ≤ greatestUnit := next ▸ x.bounded
  unfold round
  dsimp only
  simp only [Nat.pow_eq, unit, carry]
  rw [dif_pos trivial, dif_pos bounded]
  cases x
  simp_all

/-! ### Decimal places -/

theorem tenPow_mul (n a : Nat) : 10 ^ (n + 2) * a = 4 * (a * 5 ^ (n + 2)) * 2 ^ n := by
  have ten : 10 ^ (n + 2) = 2 ^ (n + 2) * 5 ^ (n + 2) := by rw [← Nat.mul_pow]
  rw [ten, Nat.pow_add 2 n 2]
  ring

/-- Quarters of a unit, counted in the last decimal place. -/
theorem unit_eq (u : Nat) :
    10 ^ decimalPlaces * 2 ^ u = 4 * (2 ^ u * 5 ^ decimalPlaces) * unitsInOne := by
  rw [decimalPlaces, unitsInOne, Nat.pow_eq]
  exact tenPow_mul binaryPlaces (2 ^ u)

theorem places_pos : 0 < 10 ^ decimalPlaces := Nat.pow_pos (by decide)

theorem fittingUnit_places {v u : Nat} (small : v < 2 ^ 55 * (2 ^ u * 5 ^ decimalPlaces))
    (large : u ≠ 0 → 2 ^ 54 * (2 ^ u * 5 ^ decimalPlaces) ≤ v) :
    fittingUnit (v * unitsInOne) (10 ^ decimalPlaces) = u := by
  have some_part := unitsInOne_pos
  apply fittingUnit_eq places_pos
  · rw [Nat.pow_add, ← Nat.mul_assoc, unit_eq]
    have := Nat.mul_lt_mul_of_pos_right small some_part
    calc v * unitsInOne < 2 ^ 55 * (2 ^ u * 5 ^ decimalPlaces) * unitsInOne := this
      _ = 4 * (2 ^ u * 5 ^ decimalPlaces) * unitsInOne * 2 ^ 53 := by ring
  · intro some_unit
    rw [Nat.pow_add, ← Nat.mul_assoc, unit_eq]
    have := Nat.mul_le_mul_right unitsInOne (large some_unit)
    calc 4 * (2 ^ u * 5 ^ decimalPlaces) * unitsInOne * 2 ^ 52
        = 2 ^ 54 * (2 ^ u * 5 ^ decimalPlaces) * unitsInOne := by ring
      _ ≤ v * unitsInOne := this

theorem nearestNat_places {v k u q : Nat} (quarter : q = 2 ^ u * 5 ^ decimalPlaces)
    (above : 4 * k * q ≤ v + 2 * q) (below : v ≤ 4 * k * q + 2 * q)
    (tie : k % 2 = 1 → 4 * k * q < v + 2 * q ∧ v < 4 * k * q + 2 * q) :
    nearestNat (v * unitsInOne) (10 ^ decimalPlaces * 2 ^ u) = k := by
  have some_quarter : 0 < q := by
    rw [quarter]
    exact Nat.mul_pos (Nat.two_pow_pos u) (Nat.pow_pos (by decide))
  have middle : k * (4 * q) = 4 * k * q := by ring
  rw [unit_eq, ← quarter, nearestNat_mul _ _ unitsInOne_pos]
  refine nearestNat_eq ?_ ?_ ?_ (by omega) <;> rw [middle] <;> omega

/-! ### Intervals -/

theorem quarter_pos (x : Binary64) : 0 < x.quarter :=
  Nat.mul_pos (Nat.two_pow_pos _) (Nat.pow_pos (by decide))

theorem high_eq (x : Binary64) : x.high = x.middle + 2 * x.quarter := by
  rw [high, middle]
  ring

theorem low_le (x : Binary64) : x.low ≤ x.middle - x.quarter := by
  rw [low_eq, middle, ← Nat.sub_one_mul]
  apply Nat.mul_le_mul_right
  split <;> omega

theorem low_of_not_power (h : ¬ (x.significand = 2 ^ 52 ∧ x.unit ≠ 0)) :
    x.low = x.middle - 2 * x.quarter := by
  rw [low_eq, middle, if_neg h, Nat.sub_mul]

theorem le_low (x : Binary64) : x.middle - 2 * x.quarter ≤ x.low := by
  rw [low_eq, middle, ← Nat.sub_mul]
  apply Nat.mul_le_mul_right
  split <;> omega

theorem accepts_of_between {v : Nat} (above : x.low < v) (below : v < x.high) :
    x.accepts v = true := by
  unfold accepts
  split <;> simp only [Bool.and_eq_true, decide_eq_true_eq] <;> omega

theorem between_of_accepts {v : Nat} (h : x.accepts v = true) :
    x.low ≤ v ∧ v ≤ x.high ∧ (x.significand % 2 = 1 → x.low < v ∧ v < x.high) := by
  unfold accepts at h
  split at h <;> simp only [Bool.and_eq_true, decide_eq_true_eq] at h <;> omega

/-- A number is what everything between the ends of its interval is rounded to. Below a power of two
that is rounded in half the unit, and carried. -/
theorem round_of_accepts {v : Nat} (h : x.accepts v = true) :
    round x.negative v (10 ^ decimalPlaces) places_pos = some x := by
  obtain ⟨above, below, strictly⟩ := between_of_accepts h
  have short := x.significand_lt
  have some_part := quarter_pos x
  have start := le_low x
  have ends := high_eq x
  by_cases halved : x.unit ≠ 0 ∧ v < 2 ^ 54 * x.quarter
  · have full := le_significand halved.1
    obtain ⟨u, next⟩ : ∃ u, x.unit = u + 1 := ⟨x.unit - 1, by omega⟩
    have half : x.quarter = 2 * (2 ^ u * 5 ^ decimalPlaces) := by
      rw [quarter_eq, next, Nat.pow_succ']
      exact Nat.mul_assoc _ _ _
    have power : x.significand = 2 ^ 52 := by
      by_contra other
      have bound : (2 ^ 54 + 4) * x.quarter ≤ 4 * x.significand * x.quarter :=
        Nat.mul_le_mul_right _ (by omega)
      rw [middle] at start
      omega
    have first : x.low = (2 ^ 54 - 1) * x.quarter := by
      rw [low_eq, if_pos ⟨power, halved.1⟩, power]
      rfl
    rw [half] at halved first
    apply round_eq_of_carry places_pos (fittingUnit_places (by omega) (by omega)) next ?_ power
    exact nearestNat_places rfl (by omega) (by omega) (by omega)
  · rw [middle] at start ends
    apply round_eq
    · apply fittingUnit_places
      · show v < 2 ^ 55 * x.quarter
        have bound : 4 * x.significand * x.quarter ≤ (2 ^ 55 - 4) * x.quarter :=
          Nat.mul_le_mul_right _ (by omega)
        omega
      · intro some_unit
        show 2 ^ 54 * x.quarter ≤ v
        omega
    · apply nearestNat_places (q := x.quarter) rfl (by omega) (by omega)
      intro odd
      have := strictly odd
      omega

theorem eq_of_accepts {y : Binary64} {v : Nat} (sign : x.negative = y.negative)
    (hx : x.accepts v = true) (hy : y.accepts v = true) : x = y := by
  have both := round_of_accepts hx
  rw [sign, round_of_accepts hy] at both
  exact (Option.some.inj both).symm

end RecordClient.Binary64
