import RecordClient.Json.Basic
import RecordClient.Text.Hex
/-!
# JSON text of a value

Two printers: `compact` without any blank, and `pretty` with one item a line and two spaces for
each level.
-/
namespace RecordClient.Json

/-- Floating numbers are positional from `0.00001` up to below `10 ^ 16`. -/
def decimalStyle : Decimal.Style := ⟨-4, 16⟩

def Number.text : Number → String
  | .int value => value.repr
  | .float value => value.text decimalStyle

/-- One character inside a string: quote, backslash and control characters are escaped, the control
characters that have one with their short form. -/
def escapedChar (c : Char) : List Char :=
  match c with
  | '"' => ['\\', '"']
  | '\\' => ['\\', '\\']
  | '\n' => ['\\', 'n']
  | '\r' => ['\\', 'r']
  | '\t' => ['\\', 't']
  | '\x08' => ['\\', 'b']
  | '\x0c' => ['\\', 'f']
  | c => if c < ' ' then ['\\', 'u'] ++ Hex.padded 4 c.toNat else [c]

def quoted (t : String) : String :=
  "\"" ++ String.ofList (t.toList.flatMap escapedChar) ++ "\""

mutual

def compact : Json → String
  | .null => "null"
  | .bool true => "true"
  | .bool false => "false"
  | .number value => value.text
  | .string value => quoted value
  | .array items => "[" ++ ",".intercalate (compactItems items) ++ "]"
  | .object fields => "\x7b" ++ ",".intercalate (compactFields fields) ++ "\x7d"

def compactItems : List Json → List String
  | [] => []
  | v :: rest => v.compact :: compactItems rest

def compactFields : List (String × Json) → List String
  | [] => []
  | (key, v) :: rest => (quoted key ++ ":" ++ v.compact) :: compactFields rest

end

def size (v : Json) : Nat := v.compact.utf8ByteSize

def lineStart (level : Nat) : String :=
  "\n" ++ String.ofList (List.replicate (2 * level) ' ')

/-- Items between brackets, each on a line of the next level; nothing between them when there are
none. -/
def block (opening closing : String) (level : Nat) : List String → String
  | [] => opening ++ closing
  | items =>
    let gap := lineStart (level + 1)
    opening ++ gap ++ ("," ++ gap).intercalate items ++ lineStart level ++ closing

mutual

def prettyAt (level : Nat) : Json → String
  | .null => "null"
  | .bool true => "true"
  | .bool false => "false"
  | .number value => value.text
  | .string value => quoted value
  | .array items => block "[" "]" level (prettyItems (level + 1) items)
  | .object fields => block "\x7b" "\x7d" level (prettyFields (level + 1) fields)

def prettyItems (level : Nat) : List Json → List String
  | [] => []
  | v :: rest => v.prettyAt level :: prettyItems level rest

def prettyFields (level : Nat) : List (String × Json) → List String
  | [] => []
  | (key, v) :: rest => (quoted key ++ ": " ++ v.prettyAt level) :: prettyFields level rest

end

def pretty (v : Json) : String := v.prettyAt 0

end RecordClient.Json
