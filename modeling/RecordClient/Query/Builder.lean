import RecordClient.Query.Condition
import RecordClient.Record.Id
/-!
# Queries

A `Query` collects what is asked of a table: columns, filters, grouping, order, limits and linked
records to expand. Its texts depend on that state alone.
-/
namespace RecordClient

inductive Grouping where
  | all
  | column (name : String)
  deriving DecidableEq, Repr

structure SortOrder where
  column : String
  direction : String
  deriving DecidableEq, Repr

/-- A query of a table. Unless it is bound to a connection it has texts but cannot be run. -/
structure Query where
  table : String
  bound : Bool := false
  columns : List String := []
  filters : List Filter := []
  grouping : Option Grouping := none
  ordering : Option SortOrder := none
  limit : Option Nat := none
  start : Option Nat := none
  expanded : List String := []
  deriving Repr

inductive Query.Step where
  | select (columns : List String)
  | andWhere (filter : Filter)
  | orWhere (filter : Filter)
  | whereIn (column : String) (values : List Json)
  | whereNotIn (column : String) (values : List Json)
  | groupBy (column : String)
  | groupAll
  | orderBy (column direction : String)
  | orderByAscending (column : String)
  | limit (count : Nat)
  | start (count : Nat)
  | fetch (column : String)
  deriving Repr

namespace Query

def ascending : String := "ASC"

/-- Changes a query. Linked records can only be expanded in ordered rows, so a query without an
order is sorted by id then. -/
def apply (q : Query) : Step → Query
  | .select columns => { q with columns }
  | .andWhere filter => { q with filters := q.filters ++ [filter] }
  | .orWhere filter => { q with filters := q.filters ++ [.either, filter] }
  | .whereIn column values => { q with filters := q.filters ++ [.contains values false column] }
  | .whereNotIn column values => { q with filters := q.filters ++ [.contains values true column] }
  | .groupBy column => { q with grouping := some (.column column) }
  | .groupAll => { q with grouping := some .all }
  | .orderBy column direction => { q with ordering := some ⟨column, direction⟩ }
  | .orderByAscending column => { q with ordering := some ⟨column, ascending⟩ }
  | .limit count => { q with limit := some count }
  | .start count => { q with start := some count }
  | .fetch column =>
    { q with
      expanded := q.expanded ++ [column]
      ordering := some (q.ordering.getD ⟨"id", ascending⟩) }

def applyAll (q : Query) (steps : List Step) : Query := steps.foldl apply q

/-! ### Texts -/

def whereText (q : Query) : String :=
  let condition := Filter.compile q.filters
  if condition = "" then "" else " WHERE " ++ condition

def columnsText (q : Query) : String :=
  if q.columns = [] then "*" else ", ".intercalate q.columns

def groupText (q : Query) : String :=
  match q.grouping with
  | none => ""
  | some .all => " GROUP ALL"
  | some (.column name) => " GROUP BY " ++ name

def orderText (q : Query) : String :=
  match q.ordering with
  | none => ""
  | some ⟨column, direction⟩ => " ORDER BY " ++ column ++ " " ++ direction

def limitText (q : Query) : String :=
  match q.limit with
  | none => ""
  | some count => " LIMIT " ++ count.repr

def startText (q : Query) : String :=
  match q.start with
  | none => ""
  | some count => " START " ++ count.repr

def fetchText (q : Query) : String :=
  if q.expanded = [] then "" else " FETCH " ++ ", ".intercalate q.expanded

def selectText (q : Query) : String :=
  "SELECT " ++ q.columnsText ++ " FROM " ++ q.table ++ q.whereText ++ q.groupText ++ q.orderText
    ++ q.limitText ++ q.startText ++ q.fetchText

def setText (data : Record) : String :=
  if data.fields = [] then "" else " SET " ++ Literal.assignments data

def updateText (q : Query) (data : Record) : String :=
  "UPDATE " ++ q.table ++ setText data ++ q.whereText

def deleteText (q : Query) : String :=
  "DELETE " ++ q.table ++ q.whereText

end Query

/-- A link from one record to another, named by a verb, with fields of its own. -/
structure Link where
  source : RecordId
  verb : String
  target : RecordId
  data : Record
  deriving DecidableEq, Repr

def Link.text (l : Link) : String :=
  "RELATE " ++ l.source.rendered ++ "->" ++ l.verb ++ "->" ++ l.target.rendered
    ++ Query.setText l.data

inductive ContentWrite where
  | create
  | update
  deriving DecidableEq, Repr

def ContentWrite.text (w : ContentWrite) (target : RecordId) (data : Record) : String :=
  (match w with | .create => "CREATE " | .update => "UPDATE ")
    ++ target.rendered ++ " CONTENT " ++ Literal.ofRecord data

end RecordClient
