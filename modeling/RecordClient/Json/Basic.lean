import RecordClient.Number.Shortest
/-!
# JSON values

Values as the client holds them. An object lists its fields in ascending order of their keys, with
no key twice; `Fields.put` keeps that, so two objects with the same fields are equal.
-/
namespace RecordClient

theorem lookup_cons {α : Type} (name : String) (value : α) (rest : List (String × α))
    (other : String) :
    ((name, value) :: rest).lookup other =
      if other = name then some value else rest.lookup other := by
  by_cases same : other = name
  · simp [same]
  · have differs : (other == name) = false := by simpa using same
    simp [List.lookup_cons, differs, same]

/-- Whole numbers within 64 bits stay whole; every other number is a binary one. -/
inductive Json.Number where
  | int (value : Int)
  | float (value : Binary64)
  deriving DecidableEq, Repr

inductive Json where
  | null
  | bool (value : Bool)
  | number (value : Json.Number)
  | string (value : String)
  | array (items : List Json)
  | object (fields : List (String × Json))
  deriving Repr, Inhabited

namespace Json

abbrev Fields := List (String × Json)

def ofNat (n : Nat) : Json := .number (.int n)

mutual

def decEq : (a b : Json) → Decidable (a = b)
  | .null, .null => isTrue rfl
  | .bool a, .bool b => decidable_of_iff (a = b) (by simp)
  | .number a, .number b => decidable_of_iff (a = b) (by simp)
  | .string a, .string b => decidable_of_iff (a = b) (by simp)
  | .array a, .array b =>
    match decEqItems a b with
    | isTrue h => isTrue (by rw [h])
    | isFalse h => isFalse (by simpa using h)
  | .object a, .object b =>
    match decEqFields a b with
    | isTrue h => isTrue (by rw [h])
    | isFalse h => isFalse (by simpa using h)
  | .null, .bool _ | .null, .number _ | .null, .string _ | .null, .array _ | .null, .object _
  | .bool _, .null | .bool _, .number _ | .bool _, .string _ | .bool _, .array _
  | .bool _, .object _ | .number _, .null | .number _, .bool _ | .number _, .string _
  | .number _, .array _ | .number _, .object _ | .string _, .null | .string _, .bool _
  | .string _, .number _ | .string _, .array _ | .string _, .object _ | .array _, .null
  | .array _, .bool _ | .array _, .number _ | .array _, .string _ | .array _, .object _
  | .object _, .null | .object _, .bool _ | .object _, .number _ | .object _, .string _
  | .object _, .array _ => isFalse (by simp)

def decEqItems : (a b : List Json) → Decidable (a = b)
  | [], [] => isTrue rfl
  | [], _ :: _ | _ :: _, [] => isFalse (by simp)
  | x :: a, y :: b =>
    match decEq x y, decEqItems a b with
    | isTrue hx, isTrue h => isTrue (by rw [hx, h])
    | isFalse hx, _ => isFalse (by simp [hx])
    | _, isFalse h => isFalse (by simp [h])

def decEqFields : (a b : List (String × Json)) → Decidable (a = b)
  | [], [] => isTrue rfl
  | [], _ :: _ | _ :: _, [] => isFalse (by simp)
  | (j, x) :: a, (k, y) :: b =>
    if hk : j = k then
      match decEq x y, decEqFields a b with
      | isTrue hx, isTrue h => isTrue (by rw [hk, hx, h])
      | isFalse hx, _ => isFalse (by simp [hx])
      | _, isFalse h => isFalse (by simp [h])
    else isFalse (by simp [hk])

end

instance : DecidableEq Json := decEq

def Fields.get? (fields : Fields) (key : String) : Option Json :=
  fields.lookup key

/-- Adds a field at its place in the order of keys, or gives a new value to the key. -/
def Fields.put (key : String) (value : Json) : Fields → Fields
  | [] => [(key, value)]
  | (k, v) :: rest =>
    if key < k then (key, value) :: (k, v) :: rest
    else if key = k then (key, value) :: rest
    else (k, v) :: Fields.put key value rest

theorem Fields.get?_cons (key : String) (value : Json) (rest : Fields) (k : String) :
    get? ((key, value) :: rest) k = if k = key then some value else rest.get? k :=
  lookup_cons key value rest k

theorem Fields.get?_put (key : String) (value : Json) (fields : Fields) (k : String) :
    (Fields.put key value fields).get? k = if k = key then some value else fields.get? k := by
  induction fields with
  | nil => rw [put, get?_cons]
  | cons field rest ih =>
    obtain ⟨j, v⟩ := field
    unfold put
    split
    · rw [get?_cons]
    · split
      · next h => rw [get?_cons, get?_cons, h]; split <;> rfl
      · next hj =>
        rw [get?_cons, get?_cons, ih]
        by_cases hk : k = j
        · rw [if_pos hk, if_pos hk, if_neg fun h => hj (h.symm.trans hk)]
        · rw [if_neg hk, if_neg hk]

/-- The fields of a list in the order of their keys; the last value of a key counts. -/
def Fields.ofList (fields : List (String × Json)) : Fields :=
  fields.foldl (fun sorted (key, value) => Fields.put key value sorted) []

def Fields.erase (key : String) (fields : Fields) : Fields :=
  fields.filter fun field => field.1 ≠ key

theorem Fields.get?_erase (key : String) (fields : Fields) (k : String) :
    (Fields.erase key fields).get? k = if k = key then none else fields.get? k := by
  induction fields with
  | nil => simp [erase, get?]
  | cons field rest ih =>
    obtain ⟨j, v⟩ := field
    unfold erase at ih ⊢
    by_cases same : j = key
    · rw [List.filter_cons_of_neg (by simpa using same), ih, get?_cons]
      by_cases h : k = key
      · rw [if_pos h, if_pos h]
      · rw [if_neg h, if_neg h, if_neg fun hj => h (hj.trans same)]
    · rw [List.filter_cons_of_pos (by simpa using same), get?_cons, get?_cons, ih]
      by_cases h : k = j
      · rw [if_pos h, if_pos h, if_neg fun hk => same (h.symm.trans hk)]
      · rw [if_neg h, if_neg h]

def field? (key : String) : Json → Option Json
  | .object fields => Fields.get? fields key
  | _ => none

def isEmpty : Json → Bool
  | .null | .array [] | .object [] => true
  | _ => false

/-- The number of a value that is a whole one within 64 bits and not negative. -/
def natural? : Json → Option Nat
  | .number (.int (.ofNat n)) => if n < Nat.pow 2 64 then some n else none
  | _ => none

end Json

/-- The body of a record: the fields of an object. -/
structure Record where
  fields : Json.Fields
  deriving DecidableEq, Repr

namespace Record

def toJson (r : Record) : Json := .object r.fields

def ofJson? : Json → Option Record
  | .object fields => some ⟨fields⟩
  | _ => none

def get? (r : Record) (key : String) : Option Json := Json.Fields.get? r.fields key

def erase (r : Record) (key : String) : Record := ⟨Json.Fields.erase key r.fields⟩

@[simp] theorem ofJson?_toJson (r : Record) : ofJson? r.toJson = some r := rfl

theorem toJson_of_ofJson? {v : Json} {r : Record} (h : ofJson? v = some r) : r.toJson = v := by
  cases v <;> simp_all [ofJson?, toJson]
  rw [← h]

end Record

end RecordClient
