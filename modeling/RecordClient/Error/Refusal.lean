import RecordClient.Json.Printer
/-!
# Refusals

Why a request is turned down before anything is sent.
-/
namespace RecordClient

inductive Refusal where
  /-- Both tokens name a table, and not the same one. -/
  | tableMismatch (table idTable : String)
  | idMismatch (tableId id : String)
  | missingTable
  | missingId (operation : String)
  /-- A column that should tell the record apart is not in its body. -/
  | missingKey (key : String)
  /-- The target names one record, but the keys ask to search for it. -/
  | keyedTarget (target : String)
  | notARecord (found : Json)
  | detached
  deriving DecidableEq, Repr

def Refusal.message : Refusal → String
  | .tableMismatch table idTable =>
    "table '" ++ table ++ "' does not match the table '" ++ idTable ++ "' of the record id"
  | .idMismatch tableId id =>
    "id '" ++ tableId ++ "' given with the table does not match id '" ++ id ++ "'"
  | .missingTable => "no table given"
  | .missingId operation => "cannot " ++ operation ++ " a record without an id"
  | .missingKey key => "upsert key '" ++ key ++ "' not found in data"
  | .keyedTarget target =>
    "'" ++ target ++ "' names a record; upsert keys other than 'id' are not allowed"
  | .notARecord found => "record data must be an object, got " ++ found.compact
  | .detached => "query builder is not bound to a connection"

end RecordClient
