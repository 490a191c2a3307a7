import RecordClient.Query.Run
/-!
# Operations of a connection

Upserts and links, which are made of several steps, and all operations as data.
-/
namespace RecordClient.Connection

/-! ### Upserts -/

def idKeys : List String := ["id"]

def upsertById (target : RecordId) (body : Record) : Plan Json := do
  let existing ← Plan.request (.select target)
  if existing.isEmpty then Plan.request (.create target body)
  else Plan.request (.update target body)

def keyFilter (target : RecordId) (body : Record) (key : String) : Except Refusal Filter :=
  if key = "id" then (target.requireId "upsert").map fun _ => .equal "id" (.string target.raw)
  else match body.get? key with
    | some v => .ok (.equal key v)
    | none => .error (.missingKey key)

/-- The query for the record that agrees with a body in all keys. -/
def matching (table : String) (filters : List Filter) : Query :=
  { Query.ofConnection table with columns := ["id"], filters := [.group filters] }

/-- Updates the first record that agrees with the body in all keys, or creates one. -/
def upsertByKeys (target : RecordId) (table : String) (body : Record) (keys : List String) :
    Plan Json := do
  let filters ← Plan.check (keys.mapM (keyFilter target body))
  let row ← (matching table filters).first
  match (row.bind (Json.field? "id")).bind Json.idText? with
  | some id =>
    let existing ← Plan.check (RecordId.parse (some table) (some id))
    Plan.request (.update existing body)
  | none => Plan.request (.create target body)

/-- Updates the record that the keys find, or creates it. A target that names one record is only
looked up by its id. -/
def upsert (target : String) (data : Json) (keys : List String) : Plan Json := do
  let body ← Plan.check (Record.require data)
  let keys := if keys = [] then idKeys else keys
  if RecordId.separator ∈ target.toList ∧ keys ≠ idKeys then
    Plan.fail (.refusal (.keyedTarget target))
  else
    let found ← Plan.check (RecordId.forRecord target body)
    let table ← Plan.check found.requireTable
    if keys = idKeys then
      let _ ← Plan.check (found.requireId "upsert")
      upsertById found body
    else upsertByKeys found table body keys

def relate (source verb target : String) (data : Option Json) : Plan Json :=
  (Query.ofConnection verb).relate source verb target data

/-! ### All operations -/

inductive Operation where
  | query (text : String)
  | select (text : String)
  | get (table : String) (id : Option String)
  | create (table : String) (data : Json)
  | insert (table : String) (data : Json)
  | update (table : String) (data : Json)
  | upsert (target : String) (data : Json) (keys : List String)
  | delete (table : String) (id : Option String)
  | drop (table : String)
  | relate (source verb target : String) (data : Option Json)
  | use (ns database : String)
  | ping
  | close
  deriving Repr

/-- The plan of an operation; `select` is `query`, and `insert` is `create`. -/
def Operation.plan : Operation → Plan Json
  | .query text | .select text => Plan.request (.query text)
  | .get table id => Connection.get table id
  | .create table data | .insert table data => Connection.create table data
  | .update table data => Connection.update table data
  | .upsert target data keys => Connection.upsert target data keys
  | .delete table id => Connection.delete table id
  | .drop table => Connection.drop table
  | .relate source verb target data => Connection.relate source verb target data
  | .use ns database => Plan.request (.use ns database)
  | .ping => Plan.request .ping
  | .close => Plan.request .close

end RecordClient.Connection
