import RecordClient.Error.Refusal
import RecordClient.Json.Fault
import RecordClient.Text.Utf8
/-!
# Errors

An operation fails because it was refused before anything was sent, because the wire failed,
because the database answered with a failure, or because the configuration cannot be used.
-/
namespace RecordClient

inductive Malformation where
  | notAList (found : Json)
  | notText (fault : Utf8.Fault)
  deriving DecidableEq, Repr

def Malformation.message : Malformation → String
  | .notAList found => "expected a list of statement results, got " ++ found.compact
  | .notText fault => fault.message

inductive WireError where
  /-- The request could not be made or its answer not be read to the end. -/
  | http
  /-- The socket broke or was used against its protocol. -/
  | webSocket
  | io
  | status (code : Nat) (body : String)
  | timeout
  | closed
  | decode (cause : Json.DecodeError)
  | malformed (cause : Malformation)
  | endpoint (address : String)
  deriving DecidableEq, Repr

def WireError.message : WireError → String
  | .http => "http request failed"
  | .webSocket => "websocket failure"
  | .io => "Transport IO Error"
  | .status code body => "request failed with status " ++ code.repr ++ ": " ++ body
  | .timeout => "timed out waiting for a reply"
  | .closed => "connection closed"
  | .decode cause => "failed to decode message: " ++ cause.message
  | .malformed cause => "malformed reply: " ++ cause.message
  | .endpoint address => "invalid endpoint '" ++ address ++ "'"

inductive QueryError where
  | statement (status : String) (detail : Json)
  | rpc (code : Int) (text : String)
  /-- A record was to be created, and none came back. -/
  | unconfirmed (target : String)
  deriving DecidableEq, Repr

def QueryError.message : QueryError → String
  | .statement status detail =>
    "statement failed with status " ++ status ++ ": " ++ detail.compact
  | .rpc code text => "rpc error " ++ code.repr ++ ": " ++ text
  | .unconfirmed target => "create on '" ++ target ++ "' returned no record"

inductive SetupError where
  | unknownConnection (name : String)
  | unreadable
  | unparsable (cause : Json.DecodeError)
  deriving DecidableEq, Repr

def SetupError.message : SetupError → String
  | .unknownConnection name => "connection '" ++ name ++ "' is not configured"
  | .unreadable => "failed to read config file"
  | .unparsable cause => "failed to parse config file: " ++ cause.message

inductive Error where
  | refusal (cause : Refusal)
  | wire (cause : WireError)
  | query (cause : QueryError)
  | setup (cause : SetupError)
  deriving DecidableEq, Repr

namespace Error

def message : Error → String
  | .refusal cause => cause.message
  | .wire cause => cause.message
  | .query cause => cause.message
  | .setup cause => cause.message

def detail? : Error → Option Json
  | .query (.statement _ detail) => some detail
  | _ => none

end Error

end RecordClient
