import RecordClient.Text.Hex
import RecordClient.Text.Punycode
import RecordClient.Text.Utf8
import RecordClient.Text.Visible
/-!
# Hosts of addresses

Which texts are hosts, as the URL standard has it. Names are checked character by character; a name
that ends in a number has to be an IPv4 address, and a name between brackets an IPv6 address.
-/
namespace RecordClient.Host

/-! ### IPv4 -/

def isDecimal (c : Char) : Bool := '0' ≤ c && c ≤ '9'

def isOctal (c : Char) : Bool := '0' ≤ c && c ≤ '7'

def isHex (c : Char) : Bool := (Hex.digitValue? c).isSome

/-- The number of digits of a base, none if one is not a digit of it. -/
def inBase (base : Nat) (isDigit : Char → Bool) (digits : List Char) : Option Nat :=
  if digits.all isDigit then
    some (digits.foldl (fun n c => base * n + (Hex.digitValue? c).getD 0) 0)
  else none

/-- A part of an IPv4 address: decimal, octal after a zero, or hexadecimal after `0x`. -/
def ipv4Part : List Char → Option Nat
  | [] => none
  | '0' :: 'x' :: digits | '0' :: 'X' :: digits => inBase 16 isHex digits
  | '0' :: c :: digits => inBase 8 isOctal (c :: digits)
  | digits => inBase 10 isDecimal digits

def nameParts (name : List Char) : List (List Char) :=
  let parts := name.splitOn '.'
  if parts.length > 1 ∧ parts.getLast? = some [] then parts.dropLast else parts

def endsInNumber (name : List Char) : Bool :=
  match (nameParts name).getLast? with
  | some last => last ≠ [] && (last.all isDecimal || (ipv4Part last).isSome)
  | none => false

/-- Up to four numbers; all but the last are bytes, and the last fills what is left. -/
def isIpv4 (name : List Char) : Bool :=
  let parts := nameParts name
  match parts.mapM ipv4Part with
  | none => false
  | some numbers =>
    match numbers.getLast? with
    | none => false
    | some last =>
      numbers.length ≤ 4 && numbers.dropLast.all (· ≤ 255)
        && last < Nat.pow 256 (5 - numbers.length)

/-! ### IPv6 -/

/-- One of the bytes at the end of an IPv6 address: no leading zero. -/
def isByteText (digits : List Char) : Bool :=
  match digits with
  | [] => false
  | ['0'] => true
  | '0' :: _ => false
  | digits => digits.all isDecimal && (inBase 10 isDecimal digits).any (· ≤ 255)

def isGroup (piece : List Char) : Bool :=
  piece ≠ [] && piece.length ≤ 4 && piece.all isHex

/-- How many groups the pieces on one side of a gap make; the last may be an IPv4 address, which
counts twice, where that is allowed. -/
def groupCount (atEnd : Bool) : List (List Char) → Option Nat
  | [] => some 0
  | [piece] =>
    if isGroup piece then some 1
    else if atEnd && (piece.splitOn '.').length = 4 && (piece.splitOn '.').all isByteText then
      some 2
    else none
  | piece :: rest => if isGroup piece then (groupCount atEnd rest).map (· + 1) else none

def gapParts : List Char → Option (List Char × List Char)
  | [] => none
  | ':' :: ':' :: rest => some ([], rest)
  | c :: rest => (gapParts rest).map fun (before, behind) => (c :: before, behind)

def groupsOf (cs : List Char) : List (List Char) := if cs = [] then [] else cs.splitOn ':'

def isIpv6 (address : List Char) : Bool :=
  match gapParts address with
  | none => groupCount true (groupsOf address) = some 8
  | some (before, behind) =>
    match groupCount false (groupsOf before), groupCount true (groupsOf behind) with
    | some m, some n => m + n ≤ 7
    | _, _ => false

/-! ### Names -/

def percentDecoded : List UInt8 → List UInt8
  | 0x25 :: a :: b :: rest =>
    match Hex.digitValue? (Char.ofNat a.toNat), Hex.digitValue? (Char.ofNat b.toNat) with
    | some high, some low => UInt8.ofNat (16 * high + low) :: percentDecoded rest
    | _, _ => 0x25 :: percentDecoded (a :: b :: rest)
  | b :: rest => b :: percentDecoded rest
  | [] => []
termination_by bytes => bytes.length

/-- The character that names use for another: full-width forms stand for ASCII, and ideographic
full stops for the dot. -/
def mappedChar (c : Char) : Char :=
  let n := c.toNat
  if 0xFF01 ≤ n ∧ n ≤ 0xFF5E then Char.ofNat (n - 0xFEE0)
  else if n = 0x3002 ∨ n = 0xFF61 then '.'
  else c

/-- Characters that names pass over: the soft hyphen, zero-width marks and variation selectors. -/
def isIgnored (c : Char) : Bool :=
  let n := c.toNat
  n = 0xAD || n = 0x200B || n = 0x2060 || n = 0x2064 || n = 0xFEFF || (0xFE00 ≤ n && n ≤ 0xFE0F)

def isForbidden (c : Char) : Bool :=
  c ≤ ' ' || c = '\x7f' || c = '%' || c = '#' || c = '/' || c = ':' || c = '<' || c = '>' || c = '?'
    || c = '@' || c = '[' || c = '\\' || c = ']' || c = '^' || c = '|'

def isNameChar (c : Char) : Bool :=
  if c.toNat < 0x80 then !isForbidden c else Text.isVisible c && mappedChar c = c

/-- Whether a piece of a name may stand between dots. A piece that starts with `xn--` has to stand
for characters of which at least one is not ASCII. -/
def isLabel (label : List Char) : Bool :=
  if (label.take 4).map Char.toLower = ['x', 'n', '-', '-'] then
    match Punycode.decode (label.drop 4) with
    | none => false
    | some cs => cs.any (0x80 ≤ ·.toNat) && cs.all isNameChar
  else label.all isNameChar

def isName (bytes : List UInt8) : Bool :=
  match Utf8.decode (percentDecoded bytes) with
  | .error _ => false
  | .ok t =>
    let name := (t.toList.filter (!isIgnored ·)).map mappedChar
    name ≠ [] && (name.splitOn '.').all isLabel && (!endsInNumber name || isIpv4 name)

def isHost (host : List Char) : Bool :=
  match host with
  | [] => false
  | '[' :: rest => rest.getLast? = some ']' && isIpv6 rest.dropLast
  | _ => isName (Utf8.encode (String.ofList host))

end RecordClient.Host
