import RecordClient.Settings.Catalog
/-!
# Arguments of the shell

Every argument is an option with a value, given behind it or attached to it. No option may be given
twice, and a connection of the catalog cannot be chosen together with a host or a port.
-/
namespace RecordClient.Shell

inductive Flag where
  | connection
  | host
  | port
  | user
  | password
  | ns
  | database
  | protocol
  | help
  | version
  deriving DecidableEq, Repr

namespace Flag

def name : Flag → String
  | connection => "connection"
  | host => "host"
  | port => "port"
  | user => "user"
  | password => "password"
  | ns => "namespace"
  | database => "database"
  | protocol => "transport"
  | help => "help"
  | version => "version"

def all : List Flag :=
  [connection, host, port, user, password, ns, database, protocol, help, version]

def letter? : Flag → Option Char
  | connection => some 'c'
  | port => some 'p'
  | user => some 'u'
  | protocol => some 't'
  | help => some 'h'
  | version => some 'V'
  | host | password | ns | database => none

def ofName? (name : String) : Option Flag := all.find? fun f => f.name = name

def ofLetter? (letter : Char) : Option Flag := all.find? fun f => f.letter? = some letter

end Flag

structure Flags where
  connection : Option String := none
  host : Option String := none
  port : Option Nat := none
  user : Option String := none
  password : Option String := none
  ns : Option String := none
  database : Option String := none
  protocol : Option Protocol := none
  deriving DecidableEq, Repr

inductive FlagError where
  | unexpected (argument : String)
  | missingValue (f : Flag)
  | needlessValue (f : Flag)
  | badValue (f : Flag) (value : String)
  | repeated (f : Flag)
  /-- A connection of the catalog has a host and a port of its own. -/
  | conflict
  deriving DecidableEq, Repr

def FlagError.message : FlagError → String
  | .unexpected argument => "unexpected argument '" ++ argument ++ "' found"
  | .missingValue f => "a value is required for '--" ++ f.name ++ "' but none was supplied"
  | .needlessValue f => "unexpected value for '--" ++ f.name ++ "'"
  | .badValue f value => "invalid value '" ++ value ++ "' for '--" ++ f.name ++ "'"
  | .repeated f => "the argument '--" ++ f.name ++ "' cannot be used multiple times"
  | .conflict => "the argument '--connection' cannot be used with '--host' or '--port'"

/-! ### Values -/

/-- A number of at most sixteen bits, with a sign in front if wanted. -/
def portOfText? (text : String) : Option Nat :=
  let number (digits : List Char) : Option Nat :=
    if digits ≠ [] ∧ digits.all Char.isDigit then
      some (digits.foldl (fun n c => 10 * n + (c.toNat - '0'.toNat)) 0)
    else none
  let value :=
    match text.toList with
    | '+' :: digits => number digits
    | '-' :: digits => (number digits).filter (· = 0)
    | digits => number digits
  value.filter (· < Nat.pow 2 16)

/-- The lower case of the characters whose lower case is an ASCII letter, the Kelvin sign
included. -/
def lowerChar (c : Char) : Char := if c = '\u212a' then 'k' else c.toLower

def protocolOfText? (text : String) : Option Protocol :=
  Protocol.ofName? (String.ofList (text.toList.map lowerChar))

def Flags.set (fs : Flags) (f : Flag) (value : String) : Except FlagError Flags :=
  let once {α : Type} (old : Option α) (new : Option α) (put : Option α → Flags) :=
    match old, new with
    | some _, _ => .error (.repeated f)
    | none, none => .error (.badValue f value)
    | none, some v => .ok (put (some v))
  match f with
  | .connection => once fs.connection (some value) fun connection => { fs with connection }
  | .host => once fs.host (some value) fun host => { fs with host }
  | .port => once fs.port (portOfText? value) fun port => { fs with port }
  | .user => once fs.user (some value) fun user => { fs with user }
  | .password => once fs.password (some value) fun password => { fs with password }
  | .ns => once fs.ns (some value) fun ns => { fs with ns }
  | .database => once fs.database (some value) fun database => { fs with database }
  | .protocol => once fs.protocol (protocolOfText? value) fun protocol => { fs with protocol }
  | .help | .version => .error (.needlessValue f)

/-! ### Arguments -/

inductive Argument where
  | long (name : String) (value : Option String)
  | short (letter : Char) (value : Option String)
  | separator
  | plain
  deriving DecidableEq, Repr

/-- Takes an argument apart. The value attached to a letter may have an equals sign in front. -/
def Argument.ofText (argument : String) : Argument :=
  match argument.toList with
  | ['-', '-'] => .separator
  | '-' :: '-' :: rest =>
    match rest.dropWhile (· ≠ '=') with
    | [] => .long (String.ofList rest) none
    | _ :: value => .long (String.ofList (rest.takeWhile (· ≠ '='))) (some (String.ofList value))
  | ['-', letter] => .short letter none
  | '-' :: letter :: '=' :: value => .short letter (some (String.ofList value))
  | '-' :: letter :: value => .short letter (some (String.ofList value))
  | _ => .plain

/-- The option that an argument names, and the value attached to it. -/
def Argument.flag? : Argument → Option (Flag × Option String)
  | .long name value => (Flag.ofName? name).map (·, value)
  | .short letter value => (Flag.ofLetter? letter).map (·, value)
  | .separator | .plain => none

/-- Whether an argument is a name with a value behind an equals sign. -/
def Argument.isAssignment : Argument → Bool
  | .long _ (some _) => true
  | _ => false

inductive Invocation where
  | session (flags : Flags)
  | help
  | version
  deriving DecidableEq, Repr

def Flag.invocation? : Flag → Option Invocation
  | .help => some .help
  | .version => some .version
  | _ => none

namespace Flags

def complete (fs : Flags) : Except FlagError Invocation :=
  if fs.connection.isSome ∧ (fs.host.isSome ∨ fs.port.isSome) then .error .conflict
  else .ok (.session fs)

/-- Reads arguments. The first that is wrong, or asks for help or the version, decides. -/
def read (fs : Flags) : List String → Except FlagError Invocation
  | [] => fs.complete
  | argument :: rest =>
    let parts := Argument.ofText argument
    match parts.flag? with
    | none =>
      if parts = .separator ∧ rest = [] then fs.complete else .error (.unexpected argument)
    | some (f, value) =>
      match f.invocation?, value with
      | some i, _ => if parts.isAssignment then .error (.needlessValue f) else .ok i
      | none, some value => do (← fs.set f value).read rest
      | none, none =>
        match rest with
        | [] => .error (.missingValue f)
        | value :: rest =>
          if Argument.ofText value = .plain then do (← fs.set f value).read rest
          else .error (.missingValue f)

def ofArguments (arguments : List String) : Except FlagError Invocation := read {} arguments

/-- What the options say about a connection. -/
def given (fs : Flags) : Settings :=
  { host := fs.host
    port := fs.port
    user := fs.user
    password := fs.password
    ns := fs.ns
    database := fs.database
    protocol := fs.protocol }

/-- The settings to connect with. A connection of the catalog is taken as it is; the other options
say nothing about it. -/
def settings (fs : Flags) (c : Catalog) : Except SetupError (Settings × List String) :=
  match fs.connection with
  | some name => c.connection name
  | none =>
    let protocol := fs.protocol.getD c.defaultProtocol
    .ok ({ fs.given with protocol := some protocol }.applyDefaults c.announce)

end Flags

end RecordClient.Shell
