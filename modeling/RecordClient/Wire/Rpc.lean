import RecordClient.Json.Structure
import RecordClient.Error.Basic
/-!
# Remote procedure calls

Requests and answers of the socket protocol. A request carries an id of its own, and the answer
that repeats it is the answer to that request.
-/
namespace RecordClient.Rpc

inductive Method where
  | use
  | signin
  | ping
  | query
  | create
  | update
  | select
  | delete
  deriving DecidableEq, Repr

def Method.text : Method → String
  | .use => "use"
  | .signin => "signin"
  | .ping => "ping"
  | .query => "query"
  | .create => "create"
  | .update => "update"
  | .select => "select"
  | .delete => "delete"

structure Request where
  id : String
  method : Method
  params : List Json
  deriving DecidableEq, Repr

def Request.toJson (r : Request) : Json :=
  .object (Json.Fields.ofList
    [("id", .string r.id), ("method", .string r.method.text), ("params", .array r.params)])

/-- The id of a request made at a time in milliseconds, told apart from others of that time by a
salt. -/
def requestId (millis salt : Nat) : String :=
  String.ofList (Hex.significant millis ++ Hex.padded 4 salt)

structure Failure where
  code : Int
  text : String
  deriving DecidableEq, Repr

structure Answer where
  id : Option Json := none
  result : Option Json := none
  failure : Option Failure := none
  deriving DecidableEq, Repr

namespace Answer

def answers (a : Answer) (id : String) : Bool := a.id = some (.string id)

/-- The result, null when none is given; a failure takes precedence. -/
def outcome (a : Answer) : Except QueryError Json :=
  match a.failure with
  | some f => .error (.rpc f.code f.text)
  | none => .ok (a.result.getD .null)

end Answer

/-! ### Reading -/

open Json Json.Reader

inductive Failure.Part where
  | code (value : Int)
  | text (value : String)

def Failure.ofParts (parts : List Failure.Part) : Except Misfit Failure :=
  match parts.findSome? (fun | .code n => some n | _ => none),
    parts.findSome? (fun | .text t => some t | _ => none) with
  | none, _ => .error (.missing "code")
  | some _, none => .error (.missing "message")
  | some code, some text => .ok ⟨code, text⟩

def Failure.reader (cs : List Char) : Result cs Failure :=
  build Failure.ofParts (structureOf "struct RpcError" 2
    [⟨"code", fun cs => (integer cs).map (·.map .code)⟩,
      ⟨"message", fun cs => (Reader.text cs).map (·.map .text)⟩]) cs

inductive Answer.Part where
  | id (value : Option Json)
  | result (value : Option Json)
  | failure (value : Option Failure)

def Answer.set (a : Answer) : Answer.Part → Answer
  | .id id => { a with id }
  | .result result => { a with result }
  | .failure failure => { a with failure }

/-- The parts of an answer, with at most `depth` lists and objects inside one another. -/
def Answer.fields (depth : Nat) : List (Reader.Field Answer.Part) :=
  [⟨"id", fun cs => (optional (value depth) cs).map (·.map .id)⟩,
    ⟨"result", fun cs => (optional (value depth) cs).map (·.map .result)⟩,
    ⟨"error", fun cs => (optional Failure.reader cs).map (·.map .failure)⟩]

/-- An answer, all parts of which may be missing. -/
def Answer.reader (depth : Nat) : (cs : List Char) → Result cs Answer :=
  build (fun parts => .ok (parts.foldl Answer.set {}))
    (structureOf "struct Reply" 0 (Answer.fields depth))

/-- The level of the answer itself counts towards the depth. -/
def Answer.read (t : String) : Except DecodeError Answer :=
  readWhole (Answer.reader (greatestDepth - 1)) t

end RecordClient.Rpc
