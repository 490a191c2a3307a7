import RecordClient.Connection.Plan
/-!
# Operations on single records

Reading, creating, updating and deleting records of a connection. What a request lacks is refused
before its call is made.
-/
namespace RecordClient

def Record.require (v : Json) : Except Refusal Record :=
  match Record.ofJson? v with
  | some body => .ok body
  | none => .error (.notARecord v)

namespace Connection

def get (table : String) (id : Option String) : Plan Json := do
  let target ← Plan.check (RecordId.parse (some table) id)
  let _ ← Plan.check target.requireTable
  Plan.request (.select target)

def createRow (table : String) (row : Json) : Plan Json := do
  let body ← Plan.check (Record.require row)
  let target ← Plan.check (RecordId.forRecord table body)
  let _ ← Plan.check target.requireTable
  Plan.request (.create target body)

/-- Creates a record for each row, in order, up to the first that fails. -/
def createRows (table : String) : List Json → Plan (List Json)
  | [] => pure []
  | row :: rest => do
    let reply ← createRow table row
    let replies ← createRows table rest
    return reply :: replies

def create (table : String) (data : Json) : Plan Json :=
  match data with
  | .array rows => do return .array (← createRows table rows)
  | row => createRow table row

def update (table : String) (data : Json) : Plan Json := do
  let body ← Plan.check (Record.require data)
  let target ← Plan.check (RecordId.forRecord table body)
  let _ ← Plan.check target.requireTable
  let _ ← Plan.check (target.requireId "update")
  Plan.request (.update target body)

def delete (table : String) (id : Option String) : Plan Json := do
  let target ← Plan.check (RecordId.parse (some table) id)
  let _ ← Plan.check target.requireTable
  let _ ← Plan.check (target.requireId "delete")
  Plan.request (.delete target)

def drop (table : String) : Plan Json :=
  Plan.request (.delete { table := some table })

end Connection

end RecordClient
