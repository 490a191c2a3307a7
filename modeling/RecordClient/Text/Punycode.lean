/-!
# Punycode

The reading side of RFC 3492: a run of letters and digits says which characters to insert into a
run of ASCII characters, and where. Each insertion is a number written to a varying base, the
distance from the insertion before.
-/
namespace RecordClient.Punycode

/-- The value of a digit: letters in either case, then the decimal digits. -/
def digitValue? (c : Char) : Option Nat :=
  if 'a' ≤ c ∧ c ≤ 'z' then some (c.toNat - 'a'.toNat)
  else if 'A' ≤ c ∧ c ≤ 'Z' then some (c.toNat - 'A'.toNat)
  else if '0' ≤ c ∧ c ≤ '9' then some (c.toNat - '0'.toNat + 26)
  else none

def threshold (position bias : Nat) : Nat :=
  if position ≤ bias then 1 else if bias + 26 ≤ position then 26 else position - bias

def scaled (distance steps : Nat) : Nat × Nat :=
  if 455 < distance then scaled (distance / 35) (steps + 36) else (distance, steps)
termination_by distance
decreasing_by exact Nat.div_lt_self (by omega) (by omega)

/-- The bias after an insertion at some distance, with which there are `size` characters. -/
def adapted (distance size : Nat) (first : Bool) : Nat :=
  let distance := if first then distance / 700 else distance / 2
  let (distance, steps) := scaled (distance + distance / size) 0
  steps + 36 * distance / (distance + 38)

/-- How far a text is read: the characters so far, the last one inserted and the place behind it,
and the number being read. -/
structure Draft where
  characters : List Char
  point : Nat := 0x80
  place : Nat := 0
  bias : Nat := 72
  start : Nat := 0
  weight : Nat := 1
  position : Nat := 36

namespace Draft

def insert (d : Draft) : Option Draft :=
  let size := d.characters.length + 1
  let point := d.point + d.place / size
  let place := d.place % size
  if h : point.isValidChar then
    some
      { characters := d.characters.insertIdx place (Char.ofNatAux point h)
        point
        place := place + 1
        bias := adapted (d.place - d.start) size (d.start = 0)
        start := place + 1 }
  else none

def read (d : Draft) (c : Char) : Option Draft := do
  let digit ← digitValue? c
  let bound := threshold d.position d.bias
  let d := { d with place := d.place + digit * d.weight }
  if digit < bound then d.insert
  else return { d with weight := d.weight * (36 - bound), position := d.position + 36 }

def isWhole (d : Draft) : Bool := d.position = 36

end Draft

/-- The characters that a text stands for: its part before the last hyphen, with those inserted
that the part behind it tells. -/
def decode (text : List Char) : Option (List Char) :=
  let digits := (text.reverse.takeWhile (· ≠ '-')).reverse
  let base := text.take (text.length - digits.length - 1)
  if base.all (·.toNat < 0x80) then
    ((digits.foldlM Draft.read { characters := base }).filter Draft.isWhole).map Draft.characters
  else none

end RecordClient.Punycode
