/-!
# Hexadecimal digits
-/
namespace RecordClient.Hex

def lowerDigit (n : Nat) : Char :=
  if n < 10 then Char.ofNat ('0'.toNat + n) else Char.ofNat ('a'.toNat + (n - 10))

def upperDigit (n : Nat) : Char :=
  if n < 10 then Char.ofNat ('0'.toNat + n) else Char.ofNat ('A'.toNat + (n - 10))

def digitValue? (c : Char) : Option Nat :=
  if '0' ≤ c ∧ c ≤ '9' then some (c.toNat - '0'.toNat)
  else if 'a' ≤ c ∧ c ≤ 'f' then some (c.toNat - 'a'.toNat + 10)
  else if 'A' ≤ c ∧ c ≤ 'F' then some (c.toNat - 'A'.toNat + 10)
  else none

/-- The lower-case digits of `n`, most significant first and none for zero. -/
def significant (n : Nat) : List Char :=
  if _h : n = 0 then [] else significant (n / 16) ++ [lowerDigit (n % 16)]
termination_by n
decreasing_by omega

/-- The lower-case digits of `n`, filled up with zeros to at least `width` places. -/
def padded (width n : Nat) : List Char :=
  let digits := significant n
  List.replicate (width - digits.length) '0' ++ digits

def upperByte (b : UInt8) : List Char :=
  [upperDigit (b.toNat / 16), upperDigit (b.toNat % 16)]

/-- The number that a run of digits writes, most significant first. -/
def value? (digits : List Char) : Option Nat :=
  digits.foldlM (fun n c => (digitValue? c).map (16 * n + ·)) 0

end RecordClient.Hex
