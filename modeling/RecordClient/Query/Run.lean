import RecordClient.Connection.Basic
import RecordClient.Query.Builder
/-!
# Running queries

A query bound to a connection is run as a plan: it sends one of its texts and reads its answer off
the reply. A query that is not bound is refused when it would be sent.
-/
namespace RecordClient.Query

def ofConnection (table : String) : Query := { table, bound := true }

def send (q : Query) (text : String) : Plan Json :=
  if q.bound then Plan.request (.query text) else Plan.fail (.refusal .detached)

/-- The rows of a reply: the items of a list, none for null, and any other value as the only
row. -/
def rows : Json → List Json
  | .array items => items
  | .null => []
  | v => [v]

def get (q : Query) : Plan (List Json) := do
  return rows (← q.send q.selectText)

def first (q : Query) : Plan (Option Json) := do
  return (← { q with limit := some 1 }.get).head?

def exists? (q : Query) : Plan Bool := do
  return (← q.first).isSome

def find (q : Query) (id : String) : Plan (Option Json) := do
  let target ← Plan.check (RecordId.parse (some q.table) (some id))
  let _ ← Plan.check (target.requireId "find")
  if q.bound then return (rows (← Connection.get target.raw none)).head?
  else Plan.fail (.refusal .detached)

/-- Creates one record of the table, or one for each item of a list. -/
def insert (q : Query) (data : Json) : Plan Json :=
  if q.bound then Connection.create q.table data else Plan.fail (.refusal .detached)

def update (q : Query) (data : Json) : Plan Json := do
  let body ← Plan.check (Record.require data)
  q.send (q.updateText body)

def delete (q : Query) : Plan Json :=
  q.send q.deleteText

/-- Makes a link between two records, with fields of its own if there is data. -/
def relate (q : Query) (source verb target : String) (data : Option Json) : Plan Json := do
  let data ← match data with
    | some v => Plan.check (Record.require v)
    | none => pure ⟨[]⟩
  let source ← Plan.check (RecordId.parse (some source) none)
  let target ← Plan.check (RecordId.parse (some target) none)
  q.send (Link.text { source, verb, target, data })

inductive Aggregate where
  | count
  | sum (column : String)
  | mean (column : String)
  | max (column : String)
  | min (column : String)
  deriving DecidableEq, Repr

/-- The name of the function, which is also that of the field with its value. -/
def Aggregate.field : Aggregate → String
  | .count => "count"
  | .sum _ => "math::sum"
  | .mean _ => "math::mean"
  | .max _ => "math::max"
  | .min _ => "math::min"

def Aggregate.argument : Aggregate → String
  | .count => ""
  | .sum column | .mean column | .max column | .min column => column

def Aggregate.expression (a : Aggregate) : String := a.field ++ "(" ++ a.argument ++ ")"

/-- The query for an aggregate alone, over one group of all rows unless it is grouped already. -/
def projecting (q : Query) (a : Aggregate) : Query :=
  { q with columns := [a.expression], grouping := some (q.grouping.getD .all) }

/-- The value of an aggregate in the first row, null when there is none. -/
def aggregate (q : Query) (a : Aggregate) : Plan Json := do
  let row := (← (q.projecting a).get).head?
  return (row.bind (Json.field? a.field)).getD .null

def count (q : Query) : Plan Nat := do
  return (← q.aggregate .count).natural?.getD 0

inductive Run where
  | get
  | first
  | exists
  | find (id : String)
  | insert (data : Json)
  | update (data : Json)
  | delete
  | relate (source verb target : String) (data : Option Json)
  | count
  | aggregate (a : Aggregate)
  deriving Repr

inductive Answer where
  | rows (rows : List Json)
  | row (row : Option Json)
  | truth (value : Bool)
  | number (value : Nat)
  | value (value : Json)
  deriving DecidableEq, Repr

def run (q : Query) : Run → Plan Answer
  | .get => .rows <$> q.get
  | .first => .row <$> q.first
  | .exists => .truth <$> q.exists?
  | .find id => .row <$> q.find id
  | .insert data => .value <$> q.insert data
  | .update data => .value <$> q.update data
  | .delete => .value <$> q.delete
  | .relate source verb target data => .value <$> q.relate source verb target data
  | .count => .number <$> q.count
  | .aggregate a => .value <$> q.aggregate a

end RecordClient.Query
