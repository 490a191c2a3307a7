import RecordClient.Settings.Catalog
/-!
# The registry of connections

Connections are handed out by name and shared. The first request for a name connects with the
settings of the catalog; later ones get the same connection. The connection that was stored last
is the current one. A request that fails has made a slot for its name and leaves it empty.
-/
namespace RecordClient

/-- A connection that is handed out; the number tells it from all others. -/
structure Shared where
  number : Nat
  protocol : Protocol
  deriving DecidableEq, Repr

structure Registry where
  catalog : Catalog
  /-- The names asked for or stored so far; a slot is empty while its name has no connection. -/
  slots : List (String × Option Shared) := []
  current : Option Shared := none
  stored : Nat := 0
  deriving DecidableEq, Repr

namespace Registry

def currentName : String := "current"

def defaultName : String := "default"

abbrev Connector := Settings → Except Error Unit

structure Outcome where
  result : Except Error (Option Shared)
  made : List Settings := []
  notices : List String := []

/-- The connection in the slot of a name. -/
def held? (r : Registry) (name : String) : Option Shared := (r.slots.lookup name).join

/-- The registry with a slot for a name, which is empty if it is a new one. -/
def withSlot (r : Registry) (name : String) : Registry :=
  match r.slots.lookup name with
  | some _ => r
  | none => { r with slots := (name, none) :: r.slots }

def fill (name : String) (shared : Shared) (slot : String × Option Shared) :
    String × Option Shared :=
  if slot.1 = name then (name, some shared) else slot

/-- Stores a connection under a name and makes it the current one. -/
def store (r : Registry) (name : String) (p : Protocol) : Shared × Registry :=
  let shared : Shared := ⟨r.stored, p⟩
  (shared,
    { r.withSlot name with
      slots := (r.withSlot name).slots.map (fill name shared)
      current := some shared
      stored := r.stored + 1 })

def settings (c : Catalog) (name : String) : Except SetupError (Settings × List String) :=
  if name = defaultName ∧ (c.connections.lookup name).isNone then .ok c.fallback
  else c.connection name

/-- The connection in the slot of a name, which is made if the slot is empty. -/
def establish (r : Registry) (name : String) (connect : Connector) : Outcome × Registry :=
  let r := r.withSlot name
  match r.held? name with
  | some shared => ({ result := .ok (some shared) }, r)
  | none =>
    match settings r.catalog name with
    | .error e => ({ result := .error (.setup e) }, r)
    | .ok (s, notices) =>
      match connect s with
      | .error e => ({ result := .error e, made := [s], notices }, r)
      | .ok () =>
        let (shared, r) := r.store name s.effectiveProtocol
        ({ result := .ok (some shared), made := [s], notices }, r)

/-- The name that a request asks for, unless it asks for the current connection. -/
def asked? (name : Option String) : Option String :=
  name.filter (· ≠ currentName)

/-- The connection of a name; the current one, or else the default, when no name is given. -/
def resolve (r : Registry) (name : Option String) (connect : Connector) : Outcome × Registry :=
  match asked? name, r.current with
  | some name, _ => r.establish name connect
  | none, some shared => ({ result := .ok (some shared) }, r)
  | none, none => r.establish defaultName connect

/-! ### Runs -/

inductive Step where
  /-- Asks for a connection; the connector decides about a connection that has to be made. -/
  | resolve (name : Option String) (connect : Connector)
  | register (name : String) (p : Protocol)
  | current

def step (r : Registry) : Step → Outcome × Registry
  | .resolve name connect => r.resolve name connect
  | .register name p =>
    let (shared, r) := r.store name p
    ({ result := .ok (some shared) }, r)
  | .current => ({ result := .ok r.current }, r)

def run (r : Registry) : List Step → List Outcome × Registry
  | [] => ([], r)
  | s :: rest =>
    let (outcome, r) := r.step s
    let (outcomes, r) := r.run rest
    (outcome :: outcomes, r)

end Registry

end RecordClient
