import RecordClient.Shell.Program
/-!
# The command line

Reads the environment, the configuration and the input, and writes what the shell writes. Nothing
can be reached from here over a network, so a call fails as it does when nothing listens. A failure
that ends the shell is thrown, once it has run; how it is shown is up to the runtime.
-/
namespace RecordClient.CommandLine

open Shell

/-- The next line of the input with its line feed; no bytes at the end of the input. -/
partial def readLine (input : IO.FS.Stream) (before : Array UInt8) : IO (List UInt8) := do
  match (← input.read 1).data.toList with
  | [b] => if b = lineFeed then return (before.push b).toList else readLine input (before.push b)
  | _ => return before.toList

def sourceAt (path : String) : IO Catalog.Source := do
  try
    match Utf8.decode (← IO.FS.readBinFile path).toList with
    | .ok text => return .file text
    | .error _ => return .unreadable
  catch
    | .noFileOrDirectory .. => return .absent
    | _ => return .unreadable

def write (events : List Event) : IO Unit := do
  let output ← IO.getStdout
  for e in events do
    output.putStr e.output
    IO.eprint e.errors
  output.flush

/-- Ends the program. Bad arguments are explained, and have a code of their own. -/
def leave (failure : Option Program.Failure) : IO Nat :=
  match failure with
  | none => return 0
  | some (.arguments cause) => do
    IO.eprintln cause.message
    return (Program.Failure.arguments cause).code
  | some failure => throw (IO.userError failure.message)

/-- Carries out lines until the session ends, and gives its exit code. -/
partial def session (input : IO.FS.Stream) (wire : Wire) : IO Nat := do
  write [.prompt]
  match ← readLine input #[] with
  | [] =>
    let o := Session.finish Wire.perform wire
    write o.events
    leave (Program.Failure.ofEnding o.ending)
  | line =>
    let t := Session.turn Wire.perform line wire
    write t.events
    match t.ending with
    | some ending => leave (Program.Failure.ofEnding ending)
    | none => session input t.state

def run (arguments : List String) : IO Nat := do
  let path := Catalog.locate (← IO.getEnv "TUNDRA_CONFIG")
  let started ← IO.monoMsNow
  let setup : Program.Setup :=
    { arguments
      path
      source := ← sourceAt path
      network := fun _ _ => none
      ids := Rpc.requestId started }
  match Program.open? setup with
  | .error report =>
    IO.print report.output
    leave report.failure
  | .ok wire => session (← IO.getStdin) wire

end RecordClient.CommandLine

def main (arguments : List String) : IO UInt32 := do
  return UInt32.ofNat (← RecordClient.CommandLine.run arguments)
