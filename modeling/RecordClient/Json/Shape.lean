import RecordClient.Json.Fault
/-!
# Reading values of a given shape

A structure is read from an object by its field names, in the order of the keys, or from a list of
its fields in the order of their declaration. The first field that does not fit is reported;
fields that were not declared are passed over.
-/
namespace RecordClient.Json

def wrongType {α : Type} (v : Json) (expected : String) : Except Misfit α :=
  .error (.wrongType (.ofJson v) expected)

def asString : Json → Except Misfit String
  | .string value => .ok value
  | v => wrongType v "a string"

def asBool : Json → Except Misfit Bool
  | .bool value => .ok value
  | v => wrongType v "a boolean"

/-- A natural number of at most `greatest`; `expected` names that range. -/
def asNatural (greatest : Nat) (expected : String) : Json → Except Misfit Nat
  | .number (.int value) =>
    if 0 ≤ value ∧ value ≤ greatest then .ok value.toNat
    else .error (.outOfRange (.number (.int value)) expected)
  | v => wrongType v expected

def asOption {α : Type} (read : Json → Except Misfit α) : Json → Except Misfit (Option α)
  | .null => .ok none
  | v => (read v).map some

def nonNull? : Json → Option Json
  | .null => none
  | v => some v

/-- The fields that a value gives to a structure, in the order in which they are read. -/
def givenFields (declared : List String) (expected : String) (v : Json) :
    Except Misfit (List (String × Json)) :=
  match v with
  | .object fields => .ok (fields.filter fun field => declared.contains field.1)
  | .array items => .ok (declared.zip items)
  | v => wrongType v expected

def checkLength (declared : List String) : Json → Except Misfit Unit
  | .array items =>
    if declared.length < items.length then .error (.tooLong items.length) else .ok ()
  | _ => .ok ()

def asStructure {α : Type} (declared : List String) (expected : String) (init : α)
    (set : α → String → Json → Except Misfit α) (v : Json) : Except Misfit α := do
  let given ← givenFields declared expected v
  let filled ← given.foldlM (fun s (key, value) => set s key value) init
  checkLength declared v
  return filled

end RecordClient.Json
