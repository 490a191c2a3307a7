import RecordClient.Json.Printer
import RecordClient.Text.Quoted
/-!
# What is wrong with a JSON text or value

A `Flaw` keeps a text from being JSON; a `Misfit` keeps a value from having the shape that was
asked for. `DecodeError` is either of them with the place in the text.
-/
namespace RecordClient.Json

inductive Flaw where
  | endsInList
  | endsInObject
  | endsInString
  | endsInValue
  | colonExpected
  | listEndExpected
  | objectEndExpected
  | wordExpected
  | valueExpected
  | keyExpected
  | badEscape
  | badNumber
  | numberTooLarge
  | loneSurrogate
  | halfPair
  | controlCharacter
  | trailingComma
  | trailingText
  | tooDeep
  deriving DecidableEq, Repr

namespace Flaw

def isEarlyEnd : Flaw → Bool
  | .endsInList | .endsInObject | .endsInString | .endsInValue => true
  | _ => false

def message : Flaw → String
  | .endsInList => "EOF while parsing a list"
  | .endsInObject => "EOF while parsing an object"
  | .endsInString => "EOF while parsing a string"
  | .endsInValue => "EOF while parsing a value"
  | .colonExpected => "expected `:`"
  | .listEndExpected => "expected `,` or `]`"
  | .objectEndExpected => "expected `,` or `\x7d`"
  | .wordExpected => "expected ident"
  | .valueExpected => "expected value"
  | .keyExpected => "key must be a string"
  | .badEscape => "invalid escape"
  | .badNumber => "invalid number"
  | .numberTooLarge => "number out of range"
  | .loneSurrogate => "lone leading surrogate in hex escape"
  | .halfPair => "unexpected end of hex escape"
  | .controlCharacter => "control character (\\u0000-\\u001F) found while parsing a string"
  | .trailingComma => "trailing comma"
  | .trailingText => "trailing characters"
  | .tooDeep => "recursion limit exceeded"

end Flaw

/-- What stands where something else was expected. -/
inductive Found where
  | null
  | bool (value : Bool)
  | number (value : Number)
  | string (value : String)
  | list
  | object
  deriving DecidableEq, Repr

namespace Found

def ofJson : Json → Found
  | .null => .null
  | .bool value => .bool value
  | .number value => .number value
  | .string value => .string value
  | .array _ => .list
  | .object _ => .object

def message : Found → String
  | .null => "null"
  | .bool value => "boolean `" ++ (if value then "true" else "false") ++ "`"
  | .number (.int value) => "integer `" ++ value.repr ++ "`"
  | .number (.float value) => "floating point `" ++ value.text decimalStyle ++ "`"
  | .string value => "string " ++ Text.shown value
  | .list => "sequence"
  | .object => "map"

end Found

/-- Why a value does not have the shape that was asked for. -/
inductive Misfit where
  | missing (field : String)
  | repeated (field : String)
  | wrongType (found : Found) (expected : String)
  | outOfRange (found : Found) (expected : String)
  | unknownVariant (name : String) (variants : List String)
  | tooShort (length : Nat) (expected : String)
  | tooLong (length : Nat)
  deriving DecidableEq, Repr

def Misfit.message : Misfit → String
  | .missing field => "missing field `" ++ field ++ "`"
  | .repeated field => "duplicate field `" ++ field ++ "`"
  | .wrongType found expected => "invalid type: " ++ found.message ++ ", expected " ++ expected
  | .outOfRange found expected => "invalid value: " ++ found.message ++ ", expected " ++ expected
  | .unknownVariant name variants =>
    "unknown variant `" ++ name ++ "`, expected one of "
      ++ ", ".intercalate (variants.map fun v => "`" ++ v ++ "`")
  | .tooShort length expected => "invalid length " ++ length.repr ++ ", expected " ++ expected
  | .tooLong length => "invalid length " ++ length.repr ++ ", expected fewer elements in array"

/-- A place in a text: lines count from one, columns are the bytes of the line before it. -/
structure Position where
  line : Nat
  column : Nat
  deriving DecidableEq, Repr

def Position.suffix (p : Position) : String :=
  " at line " ++ p.line.repr ++ " column " ++ p.column.repr

inductive DecodeError where
  | flaw (cause : Flaw) (place : Position)
  | misfit (cause : Misfit) (place : Option Position)
  deriving DecidableEq, Repr

def DecodeError.message : DecodeError → String
  | .flaw cause place => cause.message ++ place.suffix
  | .misfit cause (some place) => cause.message ++ place.suffix
  | .misfit cause none => cause.message

end RecordClient.Json
