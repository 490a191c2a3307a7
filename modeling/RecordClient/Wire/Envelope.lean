import RecordClient.Json.Shape
import RecordClient.Error.Basic
/-!
# Statement results

Query text is answered with one envelope for each statement. The first statement that failed
decides the answer; else it is the result of a single statement, or the list of all results.
-/
namespace RecordClient

structure Envelope where
  status : String
  result : Json := .null
  detail : Option Json := none
  time : Option String := none
  deriving DecidableEq, Repr

namespace Envelope

def isOk (e : Envelope) : Bool := e.status = "OK"

/-! ### Reading -/

def fieldNames : List String := ["status", "result", "detail", "time"]

/-- An envelope whose status may not have come yet. -/
structure Draft where
  status : Option String := none
  result : Json := .null
  detail : Option Json := none
  time : Option String := none

def Draft.setField (d : Draft) (field : String) (v : Json) : Except Json.Misfit Draft := do
  match field with
  | "status" => return { d with status := some (← Json.asString v) }
  | "result" => return { d with result := v }
  | "detail" => return { d with detail := Json.nonNull? v }
  | "time" => return { d with time := ← Json.asOption Json.asString v }
  | _ => return d

def ofJson (v : Json) : Except Json.Misfit Envelope := do
  if v = .array [] then
    throw (.tooShort 0 "struct StatementResult with 4 elements")
  let d ← Json.asStructure fieldNames "struct StatementResult" {} Draft.setField v
  match d.status with
  | some status => return { status, result := d.result, detail := d.detail, time := d.time }
  | none => throw (.missing "status")

def listOfJson (body : Json) : Except WireError (List Envelope) :=
  match body with
  | .array items => (items.mapM ofJson).mapError fun m => .decode (.misfit m none)
  | v => .error (.malformed (.notAList v))

/-! ### Unwrapping -/

/-- What a failed statement is reported with: its detail, or its result if there is none. -/
def failure (e : Envelope) : QueryError :=
  .statement e.status (e.detail.getD e.result)

def resultOf : List Json → Json
  | [] => .null
  | [v] => v
  | vs => .array vs

def unwrap (es : List Envelope) : Except QueryError Json :=
  match es.find? fun e => !e.isOk with
  | some e => .error e.failure
  | none => .ok (resultOf (es.map Envelope.result))

def answer (body : Json) : Except Error Json :=
  match listOfJson body with
  | .error e => .error (.wire e)
  | .ok es => (unwrap es).mapError .query

end Envelope

end RecordClient
