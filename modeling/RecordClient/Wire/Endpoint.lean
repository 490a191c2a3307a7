import RecordClient.Wire.Host
import RecordClient.Wire.Path
/-!
# Endpoints

The address `http://HOST:PORT/` of a client, read as the URL standard does. What is given as a host
is read as part of the address, so it may bring a user, another port, a path or a query along;
requests then go below that path and bring the user and the query with them.
-/
namespace RecordClient.Http

structure Credentials where
  user : String
  password : String
  deriving DecidableEq, Repr

/-- What an address leads to, and what it adds to each request. -/
structure Endpoint where
  host : String
  port : Nat
  credentials : Option Credentials := none
  /-- The pieces of the path below which resources are. -/
  base : List String := Path.root
  query : Option String := none
  deriving DecidableEq, Repr

namespace Endpoint

def defaultPort : Nat := 80

def address (host : String) (port : Nat) : String := "http://" ++ host ++ ":" ++ port.repr ++ "/"

/-! ### The parts of an address -/

/-- Characters that end the part of an address with user, host and port. -/
def endsAuthority (c : Char) : Bool := Path.isSlash c || c = '?' || c = '#'

/-- The host before a colon that stands outside of brackets, and the text from that colon on. -/
def splitPort (inside : Bool) : List Char → List Char × List Char
  | [] => ([], [])
  | c :: rest =>
    if c = ':' ∧ !inside then ([], c :: rest)
    else
      let inside := if c = '[' then true else if c = ']' then false else inside
      let (host, port) := splitPort inside rest
      (c :: host, port)

/-- A colon and a number of at most sixteen bits, or the default without a number or colon. -/
def port? : List Char → Option Nat
  | [] | [_] => some defaultPort
  | _ :: digits => (Host.inBase 10 Host.isDecimal digits).filter (· < Nat.pow 2 16)

/-- The text that escapes by number stand for, if it is one. -/
def unescaped? (cs : List Char) : Option String :=
  (Utf8.decode (Host.percentDecoded (Utf8.encode (String.ofList cs)))).toOption

/-- The user and password before a host, without its at-sign. A password that is no text or empty
is none; without both there are no credentials, and a user that is no text makes none either. -/
def credentials? (cs : List Char) : Option Credentials := do
  let user ← unescaped? (cs.takeWhile (· ≠ ':'))
  let given := (cs.dropWhile (· ≠ ':')).drop 1
  let password := if given = [] then none else unescaped? given
  if user = "" ∧ password = none then none else some ⟨user, password.getD ""⟩

/-- The query between its question mark and a hash. -/
def query? (cs : List Char) : Option String :=
  match cs.dropWhile fun c => !(c = '?' || c = '#') with
  | '?' :: rest => some (Path.encodeQuery (rest.takeWhile (· ≠ '#')))
  | _ => none

/-- An address behind its scheme. Tabs and ends of lines are left out wherever they stand, and so
are slashes at the front. -/
def start (host : String) (port : Nat) : List Char :=
  ((host ++ ":" ++ port.repr ++ "/").toList.filter (!Path.isDropped ·)).dropWhile Path.isSlash

def authority (host : String) (port : Nat) : List Char :=
  (start host port).takeWhile (!endsAuthority ·)

def behind (host : String) (port : Nat) : List Char :=
  (start host port).dropWhile (!endsAuthority ·)

/-- The host and port, which stand behind the last at-sign. -/
def hostAndPort (authority : List Char) : List Char :=
  (authority.reverse.takeWhile (· ≠ '@')).reverse

/-- The user and password, which stand before the last at-sign. -/
def userInfo (authority : List Char) : List Char :=
  authority.take (authority.length - (hostAndPort authority).length - 1)

/-- The path between the slash at its front and a question mark or hash. -/
def pathText (behind : List Char) : List Char :=
  (behind.takeWhile fun c => !(c = '?' || c = '#')).drop 1

/-- Reads an address; none if its host or its port is not one. -/
def read? (host : String) (port : Nat) : Option Endpoint :=
  let (name, portText) := splitPort false (hostAndPort (authority host port))
  match Host.isHost name, port? portText with
  | true, some own =>
    some
      { host := String.ofList name
        port := own
        credentials := credentials? (userInfo (authority host port))
        base := Path.ofText (pathText (behind host port))
        query := query? (behind host port) }
  | _, _ => none

end Endpoint

end RecordClient.Http
