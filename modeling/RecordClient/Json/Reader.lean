import RecordClient.Json.Fault
/-!
# Reading JSON text

A reader takes something off the front of a text and returns what is left, with a proof that this
is shorter; loops over items end for that reason. `value` builds a value, `ignored` only passes
over one, and `list` and `object` read any items and fields, so that a caller can read a structure
field by field in the order of the text. `DecodeError`s name the first problem of the text.
-/
namespace RecordClient.Json

/-- Where and why reading stopped. The place is before `rest`, or one byte further when the next
character has been looked at. -/
structure Stop where
  cause : Flaw ⊕ Misfit
  rest : List Char
  looked : Bool

namespace Reader

structure Taken (cs : List Char) (α : Type) where
  value : α
  rest : List Char
  shorter : rest.length < cs.length

abbrev Result (cs : List Char) (α : Type) := Except Stop (Taken cs α)

namespace Taken

variable {cs rest next : List Char} {α β : Type}

def within (t : Taken cs α) (ds : List Char) (h : cs.length ≤ ds.length) : Taken ds α :=
  ⟨t.value, t.rest, Nat.lt_of_lt_of_le t.shorter h⟩

def map (f : α → β) (t : Taken cs α) : Taken cs β :=
  ⟨f t.value, t.rest, t.shorter⟩

def one (c : Char) (rest : List Char) (value : α) : Taken (c :: rest) α :=
  ⟨value, rest, Nat.lt_succ_self _⟩

def past (t : Taken rest α) (c : Char) : Taken (c :: rest) α :=
  ⟨t.value, t.rest, Nat.lt_succ_of_lt t.shorter⟩

def onward (t : Taken rest α) (h : rest.length < cs.length) : Taken cs α :=
  ⟨t.value, t.rest, Nat.lt_trans t.shorter h⟩

def after (t : Taken cs α) (next : Taken t.rest β) : Taken cs β := next.onward t.shorter

end Taken

def stop {α : Type} (flaw : Flaw) (rest : List Char) : Except Stop α :=
  .error ⟨.inl flaw, rest, false⟩

def stopAt {α : Type} (flaw : Flaw) (rest : List Char) : Except Stop α :=
  .error ⟨.inl flaw, rest, true⟩

def refuse {α : Type} (misfit : Misfit) (rest : List Char) : Except Stop α :=
  .error ⟨.inr misfit, rest, false⟩

def isGap (c : Char) : Bool := c = ' ' || c = '\n' || c = '\t' || c = '\r'

def isDigit (c : Char) : Bool := '0' ≤ c && c ≤ '9'

theorem length_dropWhile_le (p : Char → Bool) (cs : List Char) :
    (cs.dropWhile p).length ≤ cs.length :=
  (List.dropWhile_suffix p).length_le

namespace Taken

variable {cs rest next : List Char} {α : Type} {c : Char}

def behindGap (t : Taken next α) (h : cs.dropWhile isGap = next) : Taken cs α :=
  t.within cs (h ▸ length_dropWhile_le isGap cs)

def oneBehindGap (h : cs.dropWhile isGap = c :: rest) (value : α) : Taken cs α :=
  (one c rest value).behindGap h

def pastGap (t : Taken rest α) (h : cs.dropWhile isGap = c :: rest) : Taken cs α :=
  (t.past c).behindGap h

end Taken

variable {cs : List Char} {α : Type}

/-! ### Strings -/

/-- Four hexadecimal digits. A text with fewer than four bytes left ends too early. -/
def hexUnit (cs : List Char) : Result cs Nat :=
  match cs with
  | a :: b :: c :: d :: rest =>
    match Hex.value? [a, b, c, d] with
    | some n => .ok ((((Taken.one d rest n).past c).past b).past a)
    | none => stop .badEscape rest
  | _ => if (String.ofList cs).utf8ByteSize < 4 then stop .endsInString [] else stop .badEscape []

def isHighSurrogate (n : Nat) : Bool := 0xD800 ≤ n && n ≤ 0xDBFF

def isLowSurrogate (n : Nat) : Bool := 0xDC00 ≤ n && n ≤ 0xDFFF

/-- The character of an escape by number, after `\u`. A character beyond the first plane is written
as a pair of surrogates; a surrogate without its partner is refused. -/
def numberedEscape (cs : List Char) : Result cs Char :=
  match hexUnit cs with
  | .error e => .error e
  | .ok ⟨high, rest, shorter⟩ =>
    if isLowSurrogate high then stop .loneSurrogate rest
    else if !isHighSurrogate high then .ok ⟨Char.ofNat high, rest, shorter⟩
    else match rest, shorter with
      | [], _ | ['\\'], _ => stop .endsInString []
      | '\\' :: 'u' :: tail, shorter =>
        match hexUnit tail with
        | .error e => .error e
        | .ok t =>
          let low := t.value
          if isLowSurrogate low then
            let c := Char.ofNat (0x10000 + (high - 0xD800) * 0x400 + (low - 0xDC00))
            .ok ((((t.map fun _ => c).past 'u').past '\\').onward shorter)
          else stop .loneSurrogate t.rest
      | '\\' :: _ :: tail, _ => stop .halfPair tail
      | _ :: tail, _ => stop .halfPair tail

def escape (cs : List Char) : Result cs Char :=
  match cs with
  | [] => stop .endsInString []
  | '"' :: rest => .ok (.one '"' rest '"')
  | '\\' :: rest => .ok (.one '\\' rest '\\')
  | '/' :: rest => .ok (.one '/' rest '/')
  | 'b' :: rest => .ok (.one 'b' rest '\x08')
  | 'f' :: rest => .ok (.one 'f' rest '\x0c')
  | 'n' :: rest => .ok (.one 'n' rest '\n')
  | 'r' :: rest => .ok (.one 'r' rest '\r')
  | 't' :: rest => .ok (.one 't' rest '\t')
  | 'u' :: rest => (numberedEscape rest).map (·.past 'u')
  | _ :: rest => stop .badEscape rest

/-- As `escape`, for a string that nobody asked for: the digits are checked and their number is
not. -/
def ignoredEscape (cs : List Char) : Result cs Char :=
  match cs with
  | 'u' :: rest => (hexUnit rest).map fun t => (t.map fun _ => 'u').past 'u'
  | cs => escape cs

def string (escape : (cs : List Char) → Result cs Char) (cs : List Char) :
    Result cs (List Char) :=
  match cs with
  | [] => stop .endsInString []
  | '"' :: rest => .ok (.one '"' rest [])
  | '\\' :: rest =>
    match escape rest with
    | .error e => .error e
    | .ok c => (string escape c.rest).map fun t => ((c.after t).map (c.value :: ·)).past '\\'
  | c :: rest =>
    if c < ' ' then stop .controlCharacter rest
    else (string escape rest).map fun t => (t.map (c :: ·)).past c
termination_by cs.length
decreasing_by
  · exact Nat.lt_succ_of_lt c.shorter
  · exact Nat.lt_succ_self _

/-! ### Numbers -/

structure Numeral where
  negative : Bool
  whole : List Char
  fraction : Option (List Char)
  exponent : Option Int

def digitValue (c : Char) : Nat := c.toNat - '0'.toNat

def natOfDigits (digits : List Char) : Nat :=
  digits.foldl (fun n c => 10 * n + digitValue c) 0

/-- The number of the leading digits that fit into 64 bits after `start`, and the digits left. -/
def leadingDigits (start : Nat) : List Char → Nat × List Char
  | [] => (start, [])
  | c :: rest =>
    let n := 10 * start + digitValue c
    if n < Nat.pow 2 64 then leadingDigits n rest else (start, c :: rest)

/-- The number that a numeral stands for: a whole one if it is written as such and fits, and else
the binary number for its leading digits. Minus zero is binary. -/
def Numeral.toNumber? (n : Numeral) : Option Number :=
  let (lead, wholeLeft) := leadingDigits 0 n.whole
  let float (digits : Nat) (exponent : Int) :=
    (Binary64.ofDecimal n.negative digits exponent).map Number.float
  match n.fraction, n.exponent with
  | none, none =>
    if wholeLeft ≠ [] then float lead wholeLeft.length
    else if !n.negative then some (.int lead)
    else if 0 < lead ∧ lead ≤ Nat.pow 2 63 then some (.int (-lead))
    else float lead 0
  | fraction, exponent =>
    let digits := fraction.getD []
    let (lead, left) := leadingDigits lead digits
    float lead (wholeLeft.length - (digits.length - left.length : Nat) + exponent.getD 0)

def digitsFrom (c : Char) (rest : List Char) : Taken (c :: rest) (List Char) :=
  ⟨c :: rest.takeWhile isDigit, rest.dropWhile isDigit,
    Nat.lt_succ_of_le (length_dropWhile_le isDigit rest)⟩

/-- The digits before the point: a single zero, or digits that do not begin with one. -/
def wholeDigits (cs : List Char) : Result cs (List Char) :=
  match cs with
  | [] => stop .endsInValue []
  | '0' :: rest =>
    if rest.head?.any isDigit then stopAt .badNumber rest else .ok (.one '0' rest ['0'])
  | c :: rest => if isDigit c then .ok (digitsFrom c rest) else stop .badNumber rest

def someDigits (cs : List Char) : Result cs (List Char) :=
  match cs with
  | [] => stop .endsInValue []
  | c :: rest => if isDigit c then .ok (digitsFrom c rest) else stopAt .badNumber cs

def exponentPart (cs : List Char) : Result cs Int :=
  match cs with
  | '+' :: rest => (someDigits rest).map fun t => (t.map plus).past '+'
  | '-' :: rest => (someDigits rest).map fun t => (t.map (-plus ·)).past '-'
  | cs => (someDigits cs).map (·.map plus)
where
  plus (digits : List Char) : Int := natOfDigits digits

def fractionPart (t : Taken cs α) : Except Stop (Taken cs (α × Option (List Char))) :=
  match t.rest, t.shorter with
  | '.' :: tail, h => (someDigits tail).map fun u => ((u.map (t.value, some ·)).past '.').onward h
  | rest, h => .ok ⟨(t.value, none), rest, h⟩

def exponentOf (t : Taken cs α) : Except Stop (Taken cs (α × Option Int)) :=
  match t.rest, t.shorter with
  | c :: tail, h =>
    if c = 'e' ∨ c = 'E' then
      (exponentPart tail).map fun u => ((u.map (t.value, some ·)).past c).onward h
    else .ok ⟨(t.value, none), c :: tail, h⟩
  | [], h => .ok ⟨(t.value, none), [], h⟩

def unsigned (negative : Bool) (cs : List Char) : Result cs Numeral :=
  (((wholeDigits cs).bind fractionPart).bind exponentOf).map fun t =>
    t.map fun ((whole, fraction), exponent) => ⟨negative, whole, fraction, exponent⟩

def numeral (cs : List Char) : Result cs Numeral :=
  match cs with
  | '-' :: rest => (unsigned true rest).map (·.past '-')
  | cs => unsigned false cs

def number (cs : List Char) : Result cs Number :=
  match numeral cs with
  | .error e => .error e
  | .ok t =>
    match t.value.toNumber? with
    | some n => .ok (t.map fun _ => n)
    | none => stop .numberTooLarge t.rest

/-! ### Lists and objects -/

abbrev Rest (cs : List Char) := { rest : List Char // rest.length ≤ cs.length }

def Taken.left {cs : List Char} {α : Type} (t : Taken cs α) : Rest cs :=
  ⟨t.rest, Nat.le_of_lt t.shorter⟩

namespace Rest

variable {cs next : List Char} {α : Type}

def all (cs : List Char) : Rest cs := ⟨cs, Nat.le_refl _⟩

def past (r : Rest cs) (c : Char) : Rest (c :: cs) := ⟨r.1, Nat.le_succ_of_le r.2⟩

def after (r : Rest cs) (next : Rest r.1) : Rest cs := ⟨next.1, Nat.le_trans next.2 r.2⟩

def behindGap (h : cs.dropWhile isGap = next) : Rest cs :=
  ⟨next, h ▸ length_dropWhile_le isGap cs⟩

def taken (r : Rest cs) (c : Char) (value : α) : Taken (c :: cs) α :=
  ⟨value, r.1, Nat.lt_succ_of_le r.2⟩

def andThen (r : Rest cs) (t : Taken r.1 α) : Taken cs α := t.within cs r.2

end Rest

def letters : (expected cs : List Char) → Except Stop (Rest cs)
  | [], cs => .ok (.all cs)
  | _ :: _, [] => stop .endsInValue []
  | e :: expected, c :: cs =>
    if e = c then (letters expected cs).map (·.past c) else stop .wordExpected cs

def word (first : Char) (expected : String) (value : α) (cs : List Char) : Result (first :: cs) α :=
  (letters expected.toList cs).map (·.taken first value)

def moreItems (item : (cs : List Char) → Result cs α) (cs : List Char) : Result cs (List α) :=
  match h : cs.dropWhile isGap with
  | [] => stop .endsInList []
  | ']' :: _ => .ok (.oneBehindGap h [])
  | ',' :: rest =>
    match hr : rest.dropWhile isGap with
    | [] => stop .endsInValue []
    | ']' :: tail => stopAt .trailingComma (']' :: tail)
    | next =>
      (item next).bind fun first =>
        (moreItems item first.rest).map fun t =>
          (((first.after t).behindGap hr).pastGap h).map (first.value :: ·)
  | rest => stopAt .listEndExpected rest
termination_by cs.length
decreasing_by exact ((first.behindGap hr).pastGap h).shorter

def list (item : (cs : List Char) → Result cs α) (cs : List Char) : Result cs (List α) :=
  match h : cs.dropWhile isGap with
  | [] => stop .endsInList []
  | ']' :: _ => .ok (.oneBehindGap h [])
  | next =>
    (item next).bind fun first =>
      (moreItems item first.rest).map fun t =>
        ((first.after t).behindGap h).map (first.value :: ·)

def colon (cs : List Char) : Result cs Unit :=
  match h : cs.dropWhile isGap with
  | [] => stop .endsInObject []
  | ':' :: _ => .ok (.oneBehindGap h ())
  | rest => stopAt .colonExpected rest

/-- How the parts of an object are read: its keys, and the value of a key after the keys `seen`. -/
structure FieldReader (α : Type) where
  escape : (cs : List Char) → Result cs Char
  field : (seen : List String) → (key : String) → (cs : List Char) → Result cs α

def field (reader : FieldReader α) (seen : List String) (cs : List Char) :
    Result cs (String × α) :=
  (string reader.escape cs).bind fun key =>
    (colon key.rest).bind fun c =>
      let name := String.ofList key.value
      (reader.field seen name c.rest).map fun t => ((key.after c).after t).map (name, ·)

def moreFields (reader : FieldReader α) (seen : List String) (cs : List Char) :
    Result cs (List (String × α)) :=
  match h : cs.dropWhile isGap with
  | [] => stop .endsInObject []
  | '\x7d' :: _ => .ok (.oneBehindGap h [])
  | ',' :: rest =>
    match hr : rest.dropWhile isGap with
    | [] => stop .endsInValue []
    | '"' :: tail =>
      (field reader seen tail).bind fun first =>
        (moreFields reader (first.value.1 :: seen) first.rest).map fun t =>
          (((first.after t).pastGap hr).pastGap h).map (first.value :: ·)
    | '\x7d' :: tail => stopAt .trailingComma ('\x7d' :: tail)
    | tail => stopAt .keyExpected tail
  | rest => stopAt .objectEndExpected rest
termination_by cs.length
decreasing_by exact ((first.pastGap hr).pastGap h).shorter

def object (reader : FieldReader α) (cs : List Char) : Result cs (List (String × α)) :=
  match h : cs.dropWhile isGap with
  | [] => stop .endsInObject []
  | '\x7d' :: _ => .ok (.oneBehindGap h [])
  | '"' :: rest =>
    (field reader [] rest).bind fun first =>
      (moreFields reader [first.value.1] first.rest).map fun t =>
        ((first.after t).pastGap h).map (first.value :: ·)
  | rest => stopAt .keyExpected rest

/-! ### Values -/

/-- The first character of a value chooses its reader. -/
structure Cases (α : Type) where
  null : α
  bool : Bool → α
  number : (cs : List Char) → Result cs α
  string : (cs : List Char) → Result cs α
  list : (cs : List Char) → Result cs α
  object : (cs : List Char) → Result cs α

def ofKind (cases : Cases α) : (cs : List Char) → Result cs α
  | [] => stop .endsInValue []
  | 'n' :: rest => word 'n' "ull" cases.null rest
  | 't' :: rest => word 't' "rue" (cases.bool true) rest
  | 'f' :: rest => word 'f' "alse" (cases.bool false) rest
  | '"' :: rest => (cases.string rest).map (·.past '"')
  | '[' :: rest => (cases.list rest).map (·.past '[')
  | '\x7b' :: rest => (cases.object rest).map (·.past '\x7b')
  | c :: rest =>
    if c = '-' ∨ isDigit c then cases.number (c :: rest) else stopAt .valueExpected (c :: rest)

/-- A reader for a text that begins with no blank, used behind blanks. -/
def afterGap (item : (cs : List Char) → Result cs α) (cs : List Char) : Result cs α :=
  (item (cs.dropWhile isGap)).map (·.behindGap rfl)

def byKind (cases : Cases α) (cs : List Char) : Result cs α := afterGap (ofKind cases) cs

/-- The items and fields of the lists and objects one level further down. -/
structure Inner (α : Type) where
  list : (cs : List Char) → Result cs (List α)
  object : (cs : List Char) → Result cs (List (String × α))

def Inner.none : Inner α := ⟨fun cs => stop .tooDeep cs, fun cs => stop .tooDeep cs⟩

def Inner.of (escape : (cs : List Char) → Result cs Char) (item : (cs : List Char) → Result cs α) :
    Inner α :=
  ⟨Reader.list item, Reader.object ⟨escape, fun _ _ => item⟩⟩

def valueOver (inner : Inner Json) : (cs : List Char) → Result cs Json := byKind
  { null := .null
    bool := .bool
    number := fun cs => (number cs).map (·.map .number)
    string := fun cs => (string escape cs).map (·.map (.string <| String.ofList ·))
    list := fun cs => (inner.list cs).map (·.map .array)
    object := fun cs => (inner.object cs).map (·.map (.object <| Fields.ofList ·)) }

/-- A value with at most `depth` lists and objects inside one another. -/
def value : (depth : Nat) → (cs : List Char) → Result cs Json
  | 0 => valueOver .none
  | depth + 1 => valueOver (.of escape (value depth))

def ignoredOver (inner : Inner Unit) : (cs : List Char) → Result cs Unit := byKind
  { null := ()
    bool := fun _ => ()
    number := fun cs => (numeral cs).map (·.map fun _ => ())
    string := fun cs => (string ignoredEscape cs).map (·.map fun _ => ())
    list := fun cs => (inner.list cs).map (·.map fun _ => ())
    object := fun cs => (inner.object cs).map (·.map fun _ => ()) }

def ignoredWithin : (depth : Nat) → (cs : List Char) → Result cs Unit
  | 0 => ignoredOver .none
  | depth + 1 => ignoredOver (.of ignoredEscape (ignoredWithin depth))

/-- A value that is not asked for may be as deep as it likes: each level takes a character. -/
def ignored (cs : List Char) : Result cs Unit := ignoredWithin cs.length cs

def mismatch (expected : String) (cs : List Char) : Result cs α :=
  let kind : Result cs Found := byKind
    { null := .null
      bool := .bool
      number := fun cs => (number cs).map (·.map .number)
      string := fun cs => (string escape cs).map (·.map (.string <| String.ofList ·))
      list := fun cs => refuse (.wrongType .list expected) cs
      object := fun cs => refuse (.wrongType .object expected) cs } cs
  match kind with
  | .error e => .error e
  | .ok t => refuse (.wrongType t.value expected) t.rest

/-- Reads an object; any other value is refused as not `expected`. -/
def asObject (expected : String) (depth : Nat) (cs : List Char) : Result cs Fields :=
  match h : cs.dropWhile isGap with
  | '\x7b' :: rest =>
    match depth with
    | 0 => stop .tooDeep rest
    | depth + 1 =>
      (object ⟨escape, fun _ _ => value depth⟩ rest).map fun t =>
        (t.map Fields.ofList).pastGap h
  | _ => mismatch expected cs

end Reader

def Stop.place (text : List Char) (s : Stop) : Position :=
  let before := text.take (text.length - s.rest.length)
  let line := (before.reverse.takeWhile (· ≠ '\n')).reverse
  let lines := before.count '\n' + 1
  match s.looked, s.rest with
  | true, '\n' :: _ => ⟨lines + 1, 0⟩
  | true, _ :: _ => ⟨lines, (String.ofList line).utf8ByteSize + 1⟩
  | _, _ => ⟨lines, (String.ofList line).utf8ByteSize⟩

def readAll {α : Type} (reader : (cs : List Char) → Reader.Result cs α) (cs : List Char) :
    Except DecodeError α :=
  let fail (s : Stop) : DecodeError :=
    match s.cause with
    | .inl flaw => .flaw flaw (s.place cs)
    | .inr misfit => .misfit misfit (some (s.place cs))
  match reader cs with
  | .error s => .error (fail s)
  | .ok t =>
    match t.rest.dropWhile Reader.isGap with
    | [] => .ok t.value
    | rest => .error (fail ⟨.inl .trailingText, rest, true⟩)

def readWhole {α : Type} (reader : (cs : List Char) → Reader.Result cs α) (text : String) :
    Except DecodeError α :=
  readAll reader text.toList

/-- The lists and objects that a text may have inside one another. -/
def greatestDepth : Nat := 127

def read (text : String) : Except DecodeError Json :=
  readWhole (Reader.value greatestDepth) text

end RecordClient.Json
