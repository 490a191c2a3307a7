import RecordClient.Text.Blank
/-!
# Commands of the shell

A line is a command if its first character that is not blank is a dot, and query text otherwise.
`Command.ofLine` reads a line; it never takes a line with a dot for query text.
-/
namespace RecordClient.Shell

inductive Command where
  | exit
  | ping
  | use (ns database : String)
  | get (target : String)
  | delete (target : String)
  | drop (table : String)
  | query (text : String)
  deriving DecidableEq, Repr

inductive CommandError where
  | unknown (name : String)
  | badArguments (name reason : String)
  | empty
  deriving DecidableEq, Repr

def CommandError.message : CommandError → String
  | .unknown name => "unrecognized command '" ++ name ++ "'"
  | .badArguments name reason => "invalid '" ++ name ++ "' command, " ++ reason
  | .empty => "no command provided"

namespace Command

def onlyArgument (name sample : String) : List String → Except CommandError String
  | [argument] => .ok argument
  | _ =>
    .error <| .badArguments name
      ("requires exactly one argument. Example: " ++ name ++ " " ++ sample)

/-- The command of a name and arguments. Some commands take any arguments and ignore them. -/
def ofWords (name : String) (arguments : List String) : Except CommandError Command :=
  match name with
  | ".exit" => .ok .exit
  | ".ping" => .ok .ping
  | ".use" =>
    match arguments with
    | [ns, database] => .ok (.use ns database)
    | _ =>
      .error (.badArguments name "requires namespace and database. Example: .use test test")
  | ".get" => (onlyArgument name "person:tobie" arguments).map .get
  | ".delete" => (onlyArgument name "person:tobie" arguments).map .delete
  | ".drop" => (onlyArgument name "person" arguments).map .drop
  | _ => .error (.unknown name)

def ofLine (line : String) : Except CommandError Command :=
  match Text.trimmed line.toList with
  | [] => .error .empty
  | '.' :: rest =>
    match (Text.words ('.' :: rest)).map String.ofList with
    | [] => .error .empty
    | name :: arguments => ofWords name arguments
  | text => .ok (.query (String.ofList text))

end Command

end RecordClient.Shell
