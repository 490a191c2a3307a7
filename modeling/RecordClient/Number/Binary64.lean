/-!
# Binary64

Finite numbers of the 64-bit binary format, held as sign, significand and unit, and computed with
exactly: a quotient of natural numbers is rounded once, to nearest, a tie to the even significand.
-/
namespace RecordClient

def Binary64.greatestUnit : Nat := 2045

/-- The number `±significand · 2 ^ (unit - 1074)`. The significand has 53 bits wherever the unit is
not the least one, so each number has one form. -/
structure Binary64 where
  negative : Bool
  significand : Nat
  unit : Nat
  short : significand < Nat.pow 2 53
  full : unit ≠ 0 → Nat.pow 2 52 ≤ significand
  bounded : unit ≤ Binary64.greatestUnit
  deriving DecidableEq, Repr

namespace Binary64

/-- How many binary places behind the point the least unit stands. Irreducible, so that no proof
computes its powers. -/
@[irreducible] def binaryPlaces : Nat := 1074

/-- How many of the least units are in one. -/
def unitsInOne : Nat := Nat.pow 2 binaryPlaces

theorem unitsInOne_pos : 0 < unitsInOne := Nat.two_pow_pos binaryPlaces

/-- The size of a number in least units. -/
def units (x : Binary64) : Nat := x.significand * Nat.pow 2 x.unit

/-! ### Rounding -/

/-- The natural number nearest to a quotient, the even one of two that are equally near. -/
def nearestNat (num den : Nat) : Nat :=
  let below := num / den
  let left := num % den
  if 2 * left < den then below
  else if den < 2 * left then below + 1
  else below + below % 2

theorem nearestNat_cases (num den : Nat) :
    (nearestNat num den = num / den ∧ 2 * (num % den) ≤ den) ∨
      (nearestNat num den = num / den + 1 ∧ den ≤ 2 * (num % den)) := by
  unfold nearestNat
  dsimp only
  split
  · exact Or.inl ⟨rfl, by omega⟩
  · split
    · exact Or.inr ⟨rfl, by omega⟩
    · have parity := Nat.mod_two_eq_zero_or_one (num / den)
      rcases parity with even | odd
      · exact Or.inl ⟨by omega, by omega⟩
      · exact Or.inr ⟨by omega, by omega⟩

/-- The unit in which a quotient of least units has a significand of 53 bits, or the least one. -/
def fittingUnit (num den : Nat) : Nat :=
  let guess := num.log2 - (den.log2 + 52)
  if guess ≠ 0 ∧ num < den * Nat.pow 2 (guess + 52) then guess - 1 else guess

theorem lt_of_fittingUnit {num den : Nat} (some_part : 0 < den) :
    num < den * Nat.pow 2 (fittingUnit num den + 53) := by
  unfold fittingUnit
  simp only [Nat.pow_eq]
  split
  · next small =>
    have same : num.log2 - (den.log2 + 52) - 1 + 53 = num.log2 - (den.log2 + 52) + 52 := by omega
    rw [same]
    exact small.2
  · have above : num < 2 ^ (num.log2 + 1) := Nat.lt_log2_self
    have below : 2 ^ den.log2 ≤ den := Nat.log2_self_le (Nat.ne_of_gt some_part)
    calc num < 2 ^ (num.log2 + 1) := above
      _ ≤ 2 ^ (den.log2 + (num.log2 - (den.log2 + 52) + 53)) :=
        Nat.pow_le_pow_right (by decide) (by omega)
      _ = 2 ^ den.log2 * 2 ^ (num.log2 - (den.log2 + 52) + 53) := Nat.pow_add _ _ _
      _ ≤ den * 2 ^ (num.log2 - (den.log2 + 52) + 53) := Nat.mul_le_mul_right _ below

theorem le_of_fittingUnit {num den : Nat} (h : fittingUnit num den ≠ 0) :
    den * Nat.pow 2 (fittingUnit num den + 52) ≤ num := by
  unfold fittingUnit at h ⊢
  simp only [Nat.pow_eq] at h ⊢
  split at h
  · next small =>
    rw [if_pos small]
    have some_num : num ≠ 0 := by
      intro zero
      rw [zero, Nat.log2_zero, Nat.zero_sub] at small
      exact small.1 rfl
    calc den * 2 ^ (num.log2 - (den.log2 + 52) - 1 + 52)
        ≤ 2 ^ (den.log2 + 1) * 2 ^ (num.log2 - (den.log2 + 52) - 1 + 52) :=
          Nat.mul_le_mul_right _ (Nat.le_of_lt Nat.lt_log2_self)
      _ = 2 ^ (den.log2 + 1 + (num.log2 - (den.log2 + 52) - 1 + 52)) := (Nat.pow_add _ _ _).symm
      _ = 2 ^ num.log2 := by congr 1; omega
      _ ≤ num := Nat.log2_self_le some_num
  · next large =>
    rw [if_neg large]
    exact Nat.le_of_not_lt fun small => large ⟨h, small⟩

theorem nearestNat_le {num den : Nat} (some_part : 0 < den) :
    nearestNat num (den * Nat.pow 2 (fittingUnit num den)) ≤ Nat.pow 2 53 := by
  have fits : num < den * Nat.pow 2 (fittingUnit num den + 53) := lt_of_fittingUnit some_part
  have some_unit := Nat.mul_pos some_part (Nat.two_pow_pos (fittingUnit num den))
  simp only [Nat.pow_eq] at *
  rw [Nat.pow_add, ← Nat.mul_assoc, Nat.mul_comm] at fits
  have below := (Nat.div_lt_iff_lt_mul some_unit).mpr fits
  rcases nearestNat_cases num (den * 2 ^ fittingUnit num den) with ⟨same, -⟩ | ⟨same, -⟩ <;> omega

theorem le_nearestNat {num den : Nat} (some_part : 0 < den) (h : fittingUnit num den ≠ 0) :
    Nat.pow 2 52 ≤ nearestNat num (den * Nat.pow 2 (fittingUnit num den)) := by
  have fits := le_of_fittingUnit h
  have some_unit := Nat.mul_pos some_part (Nat.two_pow_pos (fittingUnit num den))
  simp only [Nat.pow_eq] at *
  rw [Nat.pow_add, ← Nat.mul_assoc, Nat.mul_comm] at fits
  have below := (Nat.le_div_iff_mul_le some_unit).mpr fits
  rcases nearestNat_cases num (den * 2 ^ fittingUnit num den) with ⟨same, -⟩ | ⟨same, -⟩ <;> omega

/-- The number nearest to `± num / den`; none when it lies beyond the greatest finite number. -/
def round (negative : Bool) (num den : Nat) (some_part : 0 < den) : Option Binary64 :=
  let unit := fittingUnit (num * unitsInOne) den
  let q := nearestNat (num * unitsInOne) (den * Nat.pow 2 unit)
  if carry : q = Nat.pow 2 53 then
    if bounded : unit + 1 ≤ greatestUnit then
      some ⟨negative, Nat.pow 2 52, unit + 1, by decide, fun _ => Nat.le_refl _, bounded⟩
    else none
  else if bounded : unit ≤ greatestUnit then
    some ⟨negative, q, unit, Nat.lt_of_le_of_ne (nearestNat_le some_part) carry,
      le_nearestNat some_part, bounded⟩
  else none

/-! ### Products and quotients -/

def mul? (x y : Binary64) : Option Binary64 :=
  round x.negative (x.units * y.units) (unitsInOne * unitsInOne)
    (Nat.mul_pos unitsInOne_pos unitsInOne_pos)

/-- A quotient by zero is not finite. -/
def div? (x y : Binary64) : Option Binary64 :=
  if h : 0 < y.units then round x.negative x.units y.units h else none

def ofNat? (n : Nat) : Option Binary64 := round false n 1 Nat.one_pos

/-! ### Decimals -/

def greatestTenPow : Nat := 308

/-- Division by `10 ^ k`, by the greatest power of ten at a time. -/
def divTenPow (x : Binary64) (k : Nat) : Option Binary64 :=
  if _h : k ≤ greatestTenPow then (ofNat? (Nat.pow 10 k)).bind x.div?
  else if x.significand = 0 then some x
  else
    ((ofNat? (Nat.pow 10 greatestTenPow)).bind x.div?).bind fun y =>
      divTenPow y (k - greatestTenPow)
termination_by k
decreasing_by simp only [greatestTenPow] at *; omega

/-- The number that the decimal `± digits · 10 ^ exponent` is read as: the digits are rounded, and
then multiplied with or divided by the rounded power of ten, with a rounding for each step. None
when the result is too large. -/
def ofDecimal (negative : Bool) (digits : Nat) (exponent : Int) : Option Binary64 := do
  let x ← round negative digits 1 Nat.one_pos
  match exponent with
  | .ofNat k =>
    if x.significand = 0 then some x
    else if k ≤ greatestTenPow then (ofNat? (Nat.pow 10 k)).bind x.mul?
    else none
  | .negSucc k => x.divTenPow (k + 1)

end Binary64

end RecordClient
