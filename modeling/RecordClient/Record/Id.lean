import RecordClient.Json.Printer
import RecordClient.Error.Refusal
/-!
# Record ids

A record is named by a table and an id. Either may come as a token of its own or as one token
`table:id`, cut at its first colon. `RecordId.parse` merges what a table token and an id token say
and refuses tokens that disagree; `raw` is the token that the wire carries, `rendered` the form in
query text.
-/
namespace RecordClient

/-- A table, a record of a table, or an id whose table is not known. -/
structure RecordId where
  table : Option String := none
  id : Option String := none
  deriving DecidableEq, Repr

namespace RecordId

def separator : Char := ':'

/-- The empty text counts as absent. -/
def nonEmpty? (t : String) : Option String := if t = "" then none else some t

/-- The part of a token before its first colon, if it has one, and the part behind that. -/
def cut (token : String) : Option String × String :=
  match token.toList.dropWhile (· ≠ separator) with
  | [] => (none, token)
  | _ :: rest => (some (String.ofList (token.toList.takeWhile (· ≠ separator))), String.ofList rest)

/-- What a token in the place of a table names; without a colon it is the table. -/
def ofTableToken (token : String) : RecordId :=
  match cut token with
  | (some table, id) => ⟨nonEmpty? table, nonEmpty? id⟩
  | (none, table) => ⟨nonEmpty? table, none⟩

/-- What a token in the place of an id names; without a colon it is the id. -/
def ofIdToken (token : String) : RecordId :=
  match cut token with
  | (table, id) => ⟨table.bind nonEmpty?, nonEmpty? id⟩

def clash? (a b : Option String) : Option (String × String) :=
  match a, b with
  | some x, some y => if x = y then none else some (x, y)
  | _, _ => none

/-- The parts that either side names. Sides that both name a part must agree on it. -/
def merge (a b : RecordId) : Except Refusal RecordId :=
  match clash? a.table b.table, clash? a.id b.id with
  | some (table, idTable), _ => .error (.tableMismatch table idTable)
  | none, some (tableId, id) => .error (.idMismatch tableId id)
  | none, none => .ok ⟨a.table.or b.table, a.id.or b.id⟩

/-- The record that a table token and an id token name together; a token that is not given names
nothing. -/
def parse (table id : Option String) : Except Refusal RecordId :=
  merge (table.elim {} ofTableToken) (id.elim {} ofIdToken)

end RecordId

/-- The text of a field that holds an id: strings and numbers have one. -/
def Json.idText? : Json → Option String
  | .string value => some value
  | .number value => some value.text
  | _ => none

namespace RecordId

/-- The record that a token and the `id` field of a body name together. -/
def forRecord (target : String) (body : Record) : Except Refusal RecordId :=
  parse (some target) ((body.get? "id").bind Json.idText?)

def requireTable (r : RecordId) : Except Refusal String :=
  match r.table with
  | some table => .ok table
  | none => .error .missingTable

def requireId (r : RecordId) (operation : String) : Except Refusal String :=
  match r.id with
  | some id => .ok id
  | none => .error (.missingId operation)

def raw (r : RecordId) : String :=
  match r.table, r.id with
  | some table, some id => table ++ ":" ++ id
  | some table, none => table
  | none, some id => id
  | none, none => ""

def isPlainChar (c : Char) : Bool := c.isAlphanum || c = '_'

def isPlain (id : String) : Bool :=
  id ≠ "" && id.toList.all isPlainChar

def bracketChar (c : Char) : List Char :=
  if c = '⟩' then ['\\', '⟩'] else [c]

def renderedId (id : String) : String :=
  if isPlain id then id else "⟨" ++ String.ofList (id.toList.flatMap bracketChar) ++ "⟩"

def rendered (r : RecordId) : String :=
  match r.table, r.id with
  | some table, some id => table ++ ":" ++ renderedId id
  | some table, none => table
  | none, some id => renderedId id
  | none, none => ""

end RecordId

end RecordClient
