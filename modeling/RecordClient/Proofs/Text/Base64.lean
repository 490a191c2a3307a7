import RecordClient.Text.Base64
/-!
# Reading base 64

A reader of the encoding, which gives back the bytes that were encoded: `decode?_encode`.
-/
namespace RecordClient.Base64

/-- What a digit stands for. -/
def value? (c : Char) : Option Nat :=
  if 'A' ≤ c ∧ c ≤ 'Z' then some (c.toNat - 'A'.toNat)
  else if 'a' ≤ c ∧ c ≤ 'z' then some (c.toNat - 'a'.toNat + 26)
  else if '0' ≤ c ∧ c ≤ '9' then some (c.toNat - '0'.toNat + 52)
  else if c = '+' then some 62
  else if c = '/' then some 63
  else none

def firstByte (p q : Nat) : UInt8 := UInt8.ofNat (p * 4 + q / 16)

def secondByte (q r : Nat) : UInt8 := UInt8.ofNat (q % 16 * 16 + r / 4)

def thirdByte (r s : Nat) : UInt8 := UInt8.ofNat (r % 4 * 64 + s)

/-- Reads groups of four characters. Only the last group may be padded. -/
def decode? : List Char → Option (List UInt8)
  | [] => some []
  | a :: b :: c :: d :: rest =>
    match value? a, value? b, value? c, value? d with
    | some p, some q, some r, some s =>
      (decode? rest).map fun bytes => firstByte p q :: secondByte q r :: thirdByte r s :: bytes
    | some p, some q, some r, none =>
      if d = '=' ∧ rest = [] then some [firstByte p q, secondByte q r] else none
    | some p, some q, none, none =>
      if c = '=' ∧ d = '=' ∧ rest = [] then some [firstByte p q] else none
    | _, _, _, _ => none
  | _ => none

theorem value?_digit {n : Nat} (small : n < 64) : value? (digit n) = some n := by
  have all : ∀ n < 64, value? (digit n) = some n := by decide +kernel
  exact all n small

theorem value?_padding : value? '=' = none := rfl

section

variable {a b c : UInt8}

/-! The digits of a group hold six bits each. -/

theorem digits_first : a.toNat / 4 < 64 := by
  have := a.toNat_lt
  omega

theorem digits_second : a.toNat % 4 * 16 + b.toNat / 16 < 64 := by
  have := b.toNat_lt
  omega

theorem digits_third : b.toNat % 16 * 4 + c.toNat / 64 < 64 := by
  have := c.toNat_lt
  omega

theorem firstByte_digits :
    firstByte (a.toNat / 4) (a.toNat % 4 * 16 + b.toNat / 16) = a := by
  have := b.toNat_lt
  rw [firstByte, show a.toNat / 4 * 4 + (a.toNat % 4 * 16 + b.toNat / 16) / 16 = a.toNat by omega,
    UInt8.ofNat_toNat]

theorem secondByte_digits (p : Nat) :
    secondByte (p * 16 + b.toNat / 16) (b.toNat % 16 * 4 + c.toNat / 64) = b := by
  have := b.toNat_lt
  have := c.toNat_lt
  rw [secondByte, show (p * 16 + b.toNat / 16) % 16 * 16 + (b.toNat % 16 * 4 + c.toNat / 64) / 4 =
    b.toNat by omega, UInt8.ofNat_toNat]

theorem thirdByte_digits (p : Nat) : thirdByte (p * 4 + c.toNat / 64) (c.toNat % 64) = c := by
  have := c.toNat_lt
  rw [thirdByte, show (p * 4 + c.toNat / 64) % 4 * 64 + c.toNat % 64 = c.toNat by omega,
    UInt8.ofNat_toNat]

end

theorem decode?_encode (bytes : List UInt8) : decode? (encode bytes) = some bytes := by
  fun_induction encode bytes with
  | case1 => rfl
  | case2 a =>
    -- In a last group, the missing bytes count as zero.
    have second : a.toNat % 4 * 16 < 64 := digits_second (a := a) (b := 0)
    have back : firstByte (a.toNat / 4) (a.toNat % 4 * 16) = a := firstByte_digits (b := 0)
    simp [decode?, value?_digit, digits_first, second, value?_padding, back]
  | case3 a b =>
    have third : b.toNat % 16 * 4 < 64 := digits_third (b := b) (c := 0)
    have back : secondByte (a.toNat % 4 * 16 + b.toNat / 16) (b.toNat % 16 * 4) = b :=
      secondByte_digits (c := 0) _
    simp [decode?, value?_digit, digits_first, digits_second, third, value?_padding,
      firstByte_digits, back]
  | case4 a b c rest ih =>
    have fourth : c.toNat % 64 < 64 := Nat.mod_lt _ (by decide)
    simp [decode?, value?_digit, digits_first, digits_second, digits_third, fourth,
      firstByte_digits, secondByte_digits, thirdByte_digits, ih]

end RecordClient.Base64
