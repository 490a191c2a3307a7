import RecordClient.Query.Literal
/-!
# Conditions

The filters of a `WHERE` clause and their text. Neighbouring clauses are joined by `AND`, or by
`OR` where a marker stands between them; groups without a clause leave nothing behind. While it is
written, a text ends with the join that waits for its next clause.
-/
namespace RecordClient

inductive Filter where
  /-- `column operator literal` -/
  | compare (column operator : String) (value : Json)
  /-- `[literals] CONTAINS column`, or `CONTAINSNOT` when negated. -/
  | contains (values : List Json) (negated : Bool) (column : String)
  /-- Filters between parentheses. -/
  | group (filters : List Filter)
  /-- Turns the join between the clauses around it into `OR`. -/
  | either
  deriving Repr

namespace Filter

def equal (column : String) (value : Json) : Filter := .compare column "=" value

inductive Join where
  | and
  | or
  deriving DecidableEq, Repr

def Join.text : Join → String
  | .and => " AND "
  | .or => " OR "

def withoutEnding (ending t : String) : String :=
  if ending.toList.isSuffixOf t.toList then
    String.ofList (t.toList.take (t.toList.length - ending.toList.length))
  else t

/-- Writes a clause and the join to the clause that may follow it. -/
def addClause (t clause : String) : String := t ++ clause ++ Join.and.text

/-- Turns the join at the end of a text into `OR`. Without a clause there is none, and nothing
changes. -/
def alternate (t : String) : String :=
  if Join.and.text.toList.isSuffixOf t.toList then withoutEnding Join.and.text t ++ Join.or.text
  else t

/-- Takes away the join that no clause follows. A column at the very end that reads as an `OR` with
its blanks is cut off like a join. -/
def finish (t : String) : String := withoutEnding Join.or.text (withoutEnding Join.and.text t)

def comparison (column operator : String) (value : Json) : String :=
  column ++ " " ++ operator ++ " " ++ Literal.ofJson value

def membership (values : List Json) (negated : Bool) (column : String) : String :=
  Literal.ofJson (.array values) ++ (if negated then " CONTAINSNOT " else " CONTAINS ") ++ column

mutual

def extend : Filter → String → String
  | .compare column operator value, t => addClause t (comparison column operator value)
  | .contains values negated column, t => addClause t (membership values negated column)
  | .group filters, t =>
    let inner := finish (extendAll filters "")
    if inner = "" then t else addClause t ("(" ++ inner ++ ")")
  | .either, t => alternate t

def extendAll : List Filter → String → String
  | [], t => t
  | f :: rest, t => extendAll rest (extend f t)

end

def compile (filters : List Filter) : String := finish (extendAll filters "")

end Filter

end RecordClient
