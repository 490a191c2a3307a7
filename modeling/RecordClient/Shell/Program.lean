import RecordClient.Connection.Wire
import RecordClient.Shell.Flags
import RecordClient.Shell.Session
/-!
# The shell as a program

Arguments, configuration and input determine what the shell writes, what it sends and how it ends.
Bad arguments end it with code 2; a configuration or a connection that fails ends it with code 1
before anything is asked for. A failure that ends it is handed on as it is, not reported like those
of a session.
-/
namespace RecordClient.Shell.Program

structure Setup where
  arguments : List String
  /-- The path of the configuration, and what it leads to. -/
  path : String
  source : Catalog.Source
  network : Network
  ids : Nat → String

def versionText : String := "tundra 0.1.0\n"

def helpLines : List String :=
  ["A blocking client and query builder for a remote record database",
    "",
    "Usage: tundra [OPTIONS]",
    "",
    "Options:",
    "  -c, --connection <CONNECTION>  Named connection from the configuration file",
    "      --host <HOST>              ",
    "  -p, --port <PORT>              ",
    "  -u, --user <USER>              ",
    "      --password <PASSWORD>      ",
    "      --namespace <NAMESPACE>    ",
    "      --database <DATABASE>      ",
    "  -t, --transport <TRANSPORT>    `http` or `websocket`",
    "  -h, --help                     Print help",
    "  -V, --version                  Print version"]

def helpText : String := String.join (helpLines.map fun line => line ++ "\n")

/-- What ends the shell as a failure. -/
inductive Failure where
  | arguments (cause : FlagError)
  | error (cause : Error)
  /-- A line of the input is not text. -/
  | notText
  deriving DecidableEq, Repr

namespace Failure

def code : Failure → Nat
  | arguments _ => 2
  | error _ | notText => 1

def message : Failure → String
  | arguments cause => cause.message
  | error cause => cause.message
  | notText => "stream did not contain valid UTF-8"

/-- The failure that a session ends with. An error on leaving by command is only reported. -/
def ofEnding : Ending → Option Failure
  | .exit | .endOfInput (.ok _) => none
  | .endOfInput (.error e) => some (error e)
  | .notText => some notText

end Failure

structure Report where
  output : String := ""
  /-- What was reported on the way. -/
  errors : String := ""
  failure : Option Failure := none
  received : List Received := []
  deriving DecidableEq, Repr

def Report.code (r : Report) : Nat := r.failure.elim 0 Failure.code

/-- The open wire of a session, or the report of a shell that ends without one. -/
def open? (setup : Setup) : Except Report Wire :=
  match Flags.ofArguments setup.arguments with
  | .error e => .error { failure := some (.arguments e) }
  | .ok .help => .error { output := helpText }
  | .ok .version => .error { output := versionText }
  | .ok (.session flags) =>
    match (Catalog.load setup.path setup.source).1 with
    | .error e => .error { failure := some (.error (.setup e)) }
    | .ok catalog =>
      match flags.settings catalog with
      | .error e => .error { failure := some (.error (.setup e)) }
      | .ok (settings, _) =>
        match Wire.connect setup.network setup.ids settings with
        | (.error e, received) => .error { failure := some (.error e), received }
        | (.ok wire, _) => .ok wire

def reportOf (o : Session.Outcome Wire) : Report :=
  { output := String.join (o.events.map Event.output)
    errors := String.join (o.events.map Event.errors)
    failure := Failure.ofEnding o.ending
    received := o.state.received }

def run (setup : Setup) (input : List UInt8) : Report :=
  match open? setup with
  | .error report => report
  | .ok wire => reportOf (Session.run Wire.perform (lines input) wire)

end RecordClient.Shell.Program
