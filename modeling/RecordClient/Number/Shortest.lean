import RecordClient.Number.Binary64
/-!
# Shortest decimals

The shortest decimal that rounds back to a binary number, and of those the nearest one; and its text
in positional or scientific form. A quarter of the least binary unit is `5 ^ 1076` times
`10 ^ -1076`, so the ends of the interval of reals that round to a number are natural numbers when
counted in that decimal place, and so is all that the search tries.
-/
namespace RecordClient

/-- The decimal `0.d₁d₂… · 10 ^ point`, where `d₁d₂…` are the digits of `digits`. -/
structure Decimal where
  digits : Nat
  point : Int
  deriving DecidableEq, Repr

/-- How many digits a number has; zero has one. -/
def digitCount (n : Nat) : Nat := (Nat.toDigits 10 n).length

namespace Binary64

/-- How many decimal places a quarter of the least unit takes. -/
def decimalPlaces : Nat := binaryPlaces + 2

/-- A quarter of the unit of a number. This and what follows count in the last decimal place. -/
def quarter (x : Binary64) : Nat := Nat.pow 2 x.unit * Nat.pow 5 decimalPlaces

def middle (x : Binary64) : Nat := 4 * x.significand * x.quarter

/-- Halfway to the number below, which is half as far away at a power of two. -/
def low (x : Binary64) : Nat :=
  (4 * x.significand - if x.significand = Nat.pow 2 52 ∧ x.unit ≠ 0 then 1 else 2) * x.quarter

def high (x : Binary64) : Nat := (4 * x.significand + 2) * x.quarter

/-- Whether a positive number is the nearest one; a tie goes to the even significand. -/
def accepts (x : Binary64) (v : Nat) : Bool :=
  if x.significand % 2 = 0 then x.low ≤ v && v ≤ x.high else x.low < v && v < x.high

/-- The place of the last of `count` digits. -/
def step (x : Binary64) (count : Nat) : Nat := Nat.pow 10 (digitCount x.middle - count)

/-- The `count` digits nearest to a number. -/
def nearest (x : Binary64) (count : Nat) : Nat := nearestNat x.middle (x.step count)

/-- The digits on the other side of the number. -/
def opposite (x : Binary64) (count : Nat) : Nat :=
  let below := x.middle / x.step count
  if x.nearest count = below then below + 1 else below

/-- The nearest `count` digits, or the opposite ones, when they round back to a positive number. -/
def withDigits? (x : Binary64) (count : Nat) : Option Nat :=
  if x.accepts (x.nearest count * x.step count) then some (x.nearest count)
  else if x.accepts (x.opposite count * x.step count) then some (x.opposite count)
  else none

/-- A number of `count` digits as a decimal with the point where it stands in a positive number. All
nines may have been rounded up to a further digit. -/
def decimal (x : Binary64) (count k : Nat) : Decimal :=
  let point : Int := digitCount x.middle - decimalPlaces
  if k = Nat.pow 10 count then ⟨1, point + 1⟩ else ⟨k, point⟩

/-- The first hit from `count` digits on, among `left` tries; what is nearest where none hits. -/
def shortestFrom (x : Binary64) : (count left : Nat) → Decimal
  | count, 0 => x.decimal count (x.nearest count)
  | count, left + 1 =>
    match x.withDigits? count with
    | some k => x.decimal count k
    | none => shortestFrom x (count + 1) left

/-- The shortest decimal that rounds to a positive number; seventeen digits are always enough. -/
def shortest (x : Binary64) : Decimal := x.shortestFrom 1 16

end Binary64

namespace Decimal

/-- Text with a digit on both sides of the point. -/
def positional (d : Decimal) : String :=
  let digits := d.digits.repr
  let count := digitCount d.digits
  if d.point ≤ 0 then
    "0." ++ String.ofList (List.replicate (-d.point).toNat '0') ++ digits
  else if d.point < count then
    let whole := d.point.toNat
    String.ofList (digits.toList.take whole) ++ "." ++ String.ofList (digits.toList.drop whole)
  else
    digits ++ String.ofList (List.replicate (d.point.toNat - count) '0') ++ ".0"

/-- Text with one digit before the point, no point without a further digit, and a signed
exponent. -/
def scientific (d : Decimal) : String :=
  let digits := d.digits.repr.toList
  let e := d.point - 1
  String.ofList (digits.take 1)
    ++ (if digits.drop 1 = [] then "" else "." ++ String.ofList (digits.drop 1))
    ++ "e" ++ (if e < 0 then "-" else "+") ++ e.natAbs.repr

/-- Where positional text begins and ends: the decimal points for which it is used. -/
structure Style where
  firstPoint : Int
  lastPoint : Int

def text (style : Style) (d : Decimal) : String :=
  if style.firstPoint ≤ d.point ∧ d.point ≤ style.lastPoint then d.positional else d.scientific

end Decimal

namespace Binary64

/-- The text of a number without its sign. -/
def sizeText (style : Decimal.Style) (x : Binary64) : String :=
  if x.significand = 0 then "0.0" else x.shortest.text style

/-- The shortest text that reads back to the number, with its sign. -/
def text (style : Decimal.Style) (x : Binary64) : String :=
  (if x.negative then "-" else "") ++ x.sizeText style

end Binary64

end RecordClient
