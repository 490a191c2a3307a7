import RecordClient.Error.Basic
import RecordClient.Record.Id
/-!
# Calls on a wire

What every wire protocol can be asked to do. A call answers with a value; `use`, `ping` and
`close` answer with null.
-/
namespace RecordClient

inductive Call where
  /-- Runs query text and unwraps its statement results. -/
  | query (text : String)
  | select (target : RecordId)
  | create (target : RecordId) (body : Record)
  | update (target : RecordId) (body : Record)
  | delete (target : RecordId)
  /-- Chooses the namespace and database of the calls that follow. -/
  | use (ns database : String)
  | ping
  | close
  deriving DecidableEq, Repr

abbrev Reply := Except Error Json

abbrev Perform (σ : Type) := Call → σ → Reply × σ

end RecordClient
