/-!
# UTF-8

Decoding of byte sequences as RFC 3629 defines them. A sequence that is no text is refused with
the index of its first character that cannot be read and the number of bytes that character has
used up.
-/
namespace RecordClient.Utf8

inductive Fault where
  /-- The bytes end inside the character that starts at `index`. -/
  | incomplete (index : Nat)
  /-- The `length` bytes from `index` on begin no character. -/
  | invalid (index length : Nat)
  deriving DecidableEq, Repr

def Fault.message : Fault → String
  | .incomplete index => "incomplete utf-8 byte sequence from index " ++ index.repr
  | .invalid index length =>
    "invalid utf-8 sequence of " ++ length.repr ++ " bytes from index " ++ index.repr

def isTail (b : UInt8) : Bool := 0x80 ≤ b && b ≤ 0xBF

/-- What may follow a leading byte: the range of the second byte, and how many bytes come after
that. None for a byte that leads no character of several bytes. -/
def shape (lead : UInt8) : Option (UInt8 × UInt8 × Nat) :=
  if 0xC2 ≤ lead && lead ≤ 0xDF then some (0x80, 0xBF, 0)
  else if lead == 0xE0 then some (0xA0, 0xBF, 1)
  else if lead == 0xED then some (0x80, 0x9F, 1)
  else if 0xE1 ≤ lead && lead ≤ 0xEF then some (0x80, 0xBF, 1)
  else if lead == 0xF0 then some (0x90, 0xBF, 2)
  else if 0xF1 ≤ lead && lead ≤ 0xF3 then some (0x80, 0xBF, 2)
  else if lead == 0xF4 then some (0x80, 0x8F, 2)
  else none

/-- What the bytes at `index` start with: a character and its length, or a fault. -/
inductive Step where
  | char (c : Char) (length : Nat)
  | incomplete
  | invalid (length : Nat)

def payload (b : UInt8) : Nat := b.toNat % 0x40

def step (lead : UInt8) (rest : List UInt8) : Step :=
  if lead < 0x80 then .char (Char.ofNat lead.toNat) 1 else
  match shape lead, rest with
  | none, _ => .invalid 1
  | some _, [] => .incomplete
  | some (low, high, after), b :: rest =>
    if !(low ≤ b && b ≤ high) then .invalid 1 else
    match after, rest with
    | 0, _ => .char (Char.ofNat (lead.toNat % 0x20 * 0x40 + payload b)) 2
    | _, [] => .incomplete
    | after + 1, c :: rest =>
      if !isTail c then .invalid 2 else
      match after, rest with
      | 0, _ => .char (Char.ofNat (lead.toNat % 0x10 * 0x1000 + payload b * 0x40 + payload c)) 3
      | _, [] => .incomplete
      | _, d :: _ =>
        if !isTail d then .invalid 3 else
        .char (Char.ofNat (lead.toNat % 0x08 * 0x40000 + payload b * 0x1000 + payload c * 0x40
          + payload d)) 4

/-- Reads on from `index`; the first `skipped` bytes belong to the character read last. -/
def decodeFrom (index : Nat) : (skipped : Nat) → List UInt8 → Except Fault (List Char)
  | _, [] => .ok []
  | skipped + 1, _ :: rest => decodeFrom (index + 1) skipped rest
  | 0, lead :: rest =>
    match step lead rest with
    | .char c length => (decodeFrom (index + 1) (length - 1) rest).map (c :: ·)
    | .incomplete => .error (.incomplete index)
    | .invalid length => .error (.invalid index length)

def decode (bytes : List UInt8) : Except Fault String :=
  (decodeFrom 0 0 bytes).map String.ofList

def encode (t : String) : List UInt8 :=
  t.toList.flatMap String.utf8EncodeChar

end RecordClient.Utf8
