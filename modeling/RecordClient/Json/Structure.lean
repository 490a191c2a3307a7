import RecordClient.Json.Reader
/-!
# Reading structures from text

The fields of a structure are read in the order of the text, so the first problem is reported
whatever follows it. `structureOf` reads them from an object, where fields that were not declared
are passed over and none may be repeated, or from a list in the order of their declaration.
-/
namespace RecordClient.Json.Reader

variable {α : Type}

def integer (cs : List Char) : Result cs Int :=
  let expected := "i64"
  afterGap (fun cs =>
    if cs.head?.any fun c => c = '-' || isDigit c then
      match number cs with
      | .error e => .error e
      | .ok t =>
        match t.value with
        | .int n =>
          if -(Nat.pow 2 63 : Nat) ≤ n ∧ n < (Nat.pow 2 63 : Nat) then .ok (t.map fun _ => n)
          else refuse (.outOfRange (.number (.int n)) expected) t.rest
        | n => refuse (.wrongType (.number n) expected) t.rest
    else mismatch expected cs) cs

def text (cs : List Char) : Result cs String :=
  afterGap (fun cs => match cs with
    | '"' :: rest => (string escape rest).map fun t => (t.map String.ofList).past '"'
    | cs => mismatch "a string" cs) cs

def optional (item : (cs : List Char) → Result cs α) (cs : List Char) : Result cs (Option α) :=
  afterGap (fun cs => match cs with
    | 'n' :: rest => word 'n' "ull" none rest
    | cs => (item cs).map (·.map some)) cs

/-- A declared field of a structure whose fields have values in `α`. -/
structure Field (α : Type) where
  name : String
  item : (cs : List Char) → Result cs α

def declaredField (fields : List (Field α)) : FieldReader (Option α) where
  escape := escape
  field := fun seen key cs =>
    match fields.find? (·.name = key) with
    | some f =>
      if seen.contains key then refuse (.repeated key) cs else (f.item cs).map (·.map some)
    | none => (ignored cs).map (·.map fun _ => none)

/-- The next item of a list, or none at its end; the closing bracket is left to `listEnd`. -/
def nextItem (first : Bool) (item : (cs : List Char) → Result cs α) (cs : List Char) :
    Except Stop (Option α × Rest cs) :=
  match h : cs.dropWhile isGap with
  | [] => stop .endsInList []
  | ']' :: _ => .ok (none, .behindGap h)
  | c :: rest =>
    if first then (item (c :: rest)).map fun t => (some t.value, (t.behindGap h).left)
    else if c = ',' then
      match hr : rest.dropWhile isGap with
      | [] => stop .endsInValue []
      | ']' :: tail => stopAt .trailingComma (']' :: tail)
      | next => (item next).map fun t => (some t.value, ((t.behindGap hr).pastGap h).left)
    else stopAt .listEndExpected (c :: rest)

/-- The closing bracket of a list whose items have all been read. -/
def listEnd (cs : List Char) : Result cs Unit :=
  match h : cs.dropWhile isGap with
  | [] => stop .endsInList []
  | ']' :: _ => .ok (.oneBehindGap h ())
  | ',' :: rest =>
    match rest.dropWhile isGap with
    | ']' :: tail => stopAt .trailingComma (']' :: tail)
    | tail => stopAt .trailingText tail
  | rest => stopAt .trailingText rest

/-- The items of a list for the fields from number `index` on, as far as they are given; `tooShort`
refuses a list that ends before all `required` items. -/
def itemsFor (required : Nat) (tooShort : Nat → Misfit) :
    (index : Nat) → List (Field α) → (cs : List Char) → Except Stop (List α × Rest cs)
  | _, [], cs => .ok ([], .all cs)
  | index, f :: fields, cs =>
    (nextItem (index = 0) f.item cs).bind fun
      | (none, rest) => if index < required then refuse (tooShort index) rest.1 else .ok ([], rest)
      | (some value, rest) =>
        (itemsFor required tooShort (index + 1) fields rest.1).map fun (values, last) =>
          (value :: values, rest.after last)

/-- The given fields of a structure. A list must give at least the `required` first ones. -/
def structureOf (expected : String) (required : Nat) (fields : List (Field α)) (cs : List Char) :
    Result cs (List α) :=
  match h : cs.dropWhile isGap with
  | '\x7b' :: rest =>
    (object (declaredField fields) rest).map fun t =>
      (t.map (·.filterMap Prod.snd)).pastGap h
  | '[' :: rest =>
    let tooShort (n : Nat) : Misfit :=
      .tooShort n (expected ++ " with " ++ fields.length.repr ++ " elements")
    (itemsFor required tooShort 0 fields rest).bind fun (values, last) =>
      (listEnd last.1).map fun t => ((last.andThen t).map fun _ => values).pastGap h
  | _ => mismatch expected cs

def build {β : Type} (make : List α → Except Misfit β)
    (item : (cs : List Char) → Result cs (List α)) (cs : List Char) : Result cs β :=
  (item cs).bind fun t =>
    match make t.value with
    | .ok b => .ok (t.map fun _ => b)
    | .error m => refuse m t.rest

end RecordClient.Json.Reader
