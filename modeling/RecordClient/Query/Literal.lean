import RecordClient.Json.Printer
/-!
# Literals

The form of values in query text: strings between single quotes, lists between brackets, objects
between braces with their keys between double quotes. Inside quotes a backslash stands before every
quote, backslash and control character that would end or change the string.
-/
namespace RecordClient.Literal

def escapedChar (c : Char) : List Char :=
  match c with
  | '\x00' => ['\\', '0']
  | '\\' => ['\\', '\\']
  | '\n' => ['\\', 'n']
  | '\r' => ['\\', 'r']
  | '\x1a' => ['\\', 'Z']
  | '\'' => ['\\', '\'']
  | '"' => ['\\', '"']
  | c => [c]

def escape (t : String) : String :=
  String.ofList (t.toList.flatMap escapedChar)

def quote (t : String) : String := "'" ++ escape t ++ "'"

def quotedKey (key : String) : String := "\"" ++ escape key ++ "\""

mutual

def ofJson : Json → String
  | .null => "NULL"
  | .bool true => "true"
  | .bool false => "false"
  | .number value => value.text
  | .string value => quote value
  | .array items => "[" ++ ", ".intercalate (ofItems items) ++ "]"
  | .object fields => "\x7b" ++ ", ".intercalate (ofFields fields) ++ "\x7d"

def ofItems : List Json → List String
  | [] => []
  | v :: rest => ofJson v :: ofItems rest

def ofFields : List (String × Json) → List String
  | [] => []
  | (key, v) :: rest => (quotedKey key ++ ": " ++ ofJson v) :: ofFields rest

end

def ofRecord (r : Record) : String := ofJson r.toJson

def assignment (field : String × Json) : String := field.1 ++ " = " ++ ofJson field.2

def assignments (r : Record) : String := ", ".intercalate (r.fields.map assignment)

end RecordClient.Literal
