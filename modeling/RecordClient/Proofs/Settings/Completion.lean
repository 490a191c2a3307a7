import RecordClient.Proofs.Settings.Registry
import RecordClient.Shell.Flags
/-!
# Completed settings

Settings come from an entry of the catalog, from the registry or from the arguments of the shell,
and each way completes them on its own. What they come to is the same (`paths_complete_alike`):
nothing that was given changes, the gaps are filled and announced in order, and a second completion
has nothing left to do.
-/
namespace RecordClient

/-! ### Locations -/

/-- The parts of a location, which have defaults. -/
inductive Place where
  | host
  | port
  | ns
  | database
  deriving DecidableEq, Repr

namespace Place

/-- The parts in the order of their notices. -/
def all : List Place := [host, port, ns, database]

abbrev Value : Place → Type
  | port => Nat
  | host | ns | database => String

def given? (s : Settings) : (p : Place) → Option p.Value
  | host => s.host
  | port => s.port
  | ns => s.ns
  | database => s.database

def effective (s : Settings) : (p : Place) → p.Value
  | host => s.effectiveHost
  | port => s.effectivePort
  | ns => s.effectiveNamespace
  | database => s.effectiveDatabase

def notice : Place → String
  | host => "no host specified, using localhost"
  | port => "no port specified, using 8000"
  | ns => "no namespace specified, using default"
  | database => "no database specified, using default"

def missing (s : Settings) : List Place := all.filter fun p => (p.given? s).isNone

theorem effective_eq_of_given {s : Settings} {p : Place} {v : p.Value} (h : p.given? s = some v) :
    p.effective s = v := by
  cases p <;> exact congrArg (Option.getD · _) h

end Place

namespace Settings

variable (s : Settings)

theorem given?_located (p : Place) : p.given? s.located = some (p.effective s) := by
  cases p with
  | host => cases h : s.host <;> simp [Place.given?, located, Place.effective, effectiveHost, h]
  | port => cases h : s.port <;> simp [Place.given?, located, Place.effective, effectivePort, h]
  | ns => cases h : s.ns <;> simp [Place.given?, located, Place.effective, effectiveNamespace, h]
  | database =>
    cases h : s.database <;> simp [Place.given?, located, Place.effective, effectiveDatabase, h]

theorem effective_located (p : Place) : p.effective s.located = p.effective s :=
  Place.effective_eq_of_given (s.given?_located p)

theorem gapNotices_eq : s.gapNotices = (Place.missing s).map Place.notice := by
  obtain ⟨host, port, _, _, ns, database, _, _, _⟩ := s
  cases host <;> cases port <;> cases ns <;> cases database <;> rfl

theorem gapNotices_located : s.located.gapNotices = [] := by
  have none : Place.missing s.located = [] := by
    simp [Place.missing, given?_located]
  rw [gapNotices_eq, none]
  rfl

theorem located_located : s.located.located = s.located := by
  simp [located]

theorem applyDefaults_again (announce again : Bool) :
    (s.applyDefaults announce).1.applyDefaults again = ((s.applyDefaults announce).1, []) := by
  simp [applyDefaults, gapNotices_located, located_located]

end Settings

/-! ### Completed settings -/

/-- What completed settings keep of those they come from, what they have, and what is announced. -/
structure Completed (c : Catalog) (s done : Settings) (notices : List String) : Prop where
  given : ∀ (p : Place) (v : p.Value), p.given? s = some v → p.given? done = some v
  user : done.user = s.user
  password : done.password = s.password
  payloadLimit : done.payloadLimit = s.payloadLimit
  timeout : done.timeout = s.timeout
  located : ∀ p : Place, p.given? done = some (p.effective s)
  protocol : done.protocol = some (s.protocol.getD c.defaultProtocol)
  notices : notices = if c.announce then (Place.missing s).map Place.notice else []
  effective : ∀ p : Place, p.effective done = p.effective s
  again : ∀ announce, done.applyDefaults announce = (done, [])

theorem Catalog.complete_completed (c : Catalog) (s : Settings) :
    Completed c s (c.complete s).1 (c.complete s).2 := by
  -- The protocol is chosen first; which parts of the location are given does not depend on it.
  have located (p : Place) : p.given? (c.complete s).1 = some (p.effective s) := by
    cases p <;> exact Settings.given?_located { s with protocol := _ } _
  have notices : (c.complete s).2 =
      if c.announce then (Place.missing s).map Place.notice else [] :=
    congrArg (if c.announce then · else []) (Settings.gapNotices_eq { s with protocol := _ })
  exact
    { given := fun p v given => by rw [located, Place.effective_eq_of_given given]
      user := rfl
      password := rfl
      payloadLimit := rfl
      timeout := rfl
      located
      protocol := rfl
      notices
      effective := fun p => Place.effective_eq_of_given (located p)
      again := Settings.applyDefaults_again _ _ }

/-! ### Ways to settings -/

/-- The settings that a catalog has under a name. The default is there even if it is not
configured. -/
def Catalog.Lists (c : Catalog) (name : String) (s : Settings) : Prop :=
  c.connections.lookup name = some s ∨
    name = Registry.defaultName ∧ c.connections.lookup name = none ∧ s = {}

/-- The arguments of the shell that say the same as settings, as far as there are arguments for
it. -/
def Settings.flags (s : Settings) : Shell.Flags :=
  { host := s.host
    port := s.port
    user := s.user
    password := s.password
    ns := s.ns
    database := s.database
    protocol := s.protocol }

theorem Catalog.connection_of_lookup {c : Catalog} {name : String} {s : Settings}
    (entry : c.connections.lookup name = some s) : c.connection name = .ok (c.complete s) := by
  rw [connection, entry]

theorem Registry.settings_of_lists {c : Catalog} {name : String} {s : Settings}
    (listed : c.Lists name s) : settings c name = .ok (c.complete s) := by
  rcases listed with entry | ⟨default, missing, rfl⟩
  · have other : ¬(name = defaultName ∧ (c.connections.lookup name).isNone) := by simp [entry]
    rw [settings, if_neg other, Catalog.connection_of_lookup entry]
  · rw [settings, if_pos ⟨default, by rw [missing]; rfl⟩]
    rfl

/-- A request for a name connects with its settings, unless it has a connection. -/
theorem Registry.made_of_settings {r : Registry} {name : String} {s : Settings}
    {notices : List String} (named : name ≠ currentName)
    (set : settings r.catalog name = .ok (s, notices)) (connect : Connector) :
    (r.held? name = none → (r.resolve (some name) connect).1.made = [s] ∧
      (r.resolve (some name) connect).1.notices = notices) ∧
    ∀ shared, r.held? name = some shared → (r.resolve (some name) connect).1.made = [] := by
  rw [resolve_of_ne r named]
  have ends := established r name connect
  generalize r.establish name connect = answer at ends ⊢
  cases ends with
  | cached held => exact ⟨fun empty => by (cases held.symm.trans empty), fun _ _ => rfl⟩
  | unknown _ unset => cases set.symm.trans unset
  | failed empty found _ | made empty found _ =>
    cases set.symm.trans found
    exact ⟨fun _ => ⟨rfl, rfl⟩, fun shared held => by (cases held.symm.trans empty)⟩

theorem Shell.Flags.settings_of_free {fs : Shell.Flags} (free : fs.connection = none)
    (c : Catalog) : fs.settings c = .ok (c.complete fs.given) := by
  rw [settings, free]
  rfl

theorem Settings.given_flags {s : Settings} (unlimited : s.payloadLimit = none)
    (patient : s.timeout = none) : s.flags.given = s := by
  obtain ⟨_, _, _, _, _, _, _, _, _⟩ := s
  cases unlimited
  cases patient
  rfl

/-- The catalog, the registry and the shell come to the same settings with the same notices,
whichever of them completes the settings. -/
theorem paths_complete_alike (c : Catalog) (s : Settings) :
    (∃ done notices, Completed c s done notices ∧
      (∀ name, c.connections.lookup name = some s → c.connection name = .ok (done, notices)) ∧
      (s = {} → c.fallback = (done, notices)) ∧
      (∀ (r : Registry) (name : String) (connect : Registry.Connector),
        r.catalog = c → name ≠ Registry.currentName → c.Lists name s →
        (r.held? name = none → (r.resolve (some name) connect).1.made = [done] ∧
          (r.resolve (some name) connect).1.notices = notices) ∧
        ∀ shared, r.held? name = some shared →
          (r.resolve (some name) connect).1.made = []) ∧
      (s.payloadLimit = none → s.timeout = none →
        s.flags.settings c = .ok (done, notices))) ∧
    (∀ announce (p : Place), p.effective (s.applyDefaults announce).1 = p.effective s) ∧
    ∀ announce again, (s.applyDefaults announce).1.applyDefaults again =
      ((s.applyDefaults announce).1, []) := by
  refine ⟨⟨(c.complete s).1, (c.complete s).2, c.complete_completed s, ?_, ?_, ?_, ?_⟩, ?_, ?_⟩
  · exact fun name => Catalog.connection_of_lookup
  · rintro rfl
    rfl
  · rintro r name connect rfl named listed
    exact Registry.made_of_settings named (Registry.settings_of_lists listed) connect
  · intro unlimited patient
    rw [Shell.Flags.settings_of_free rfl, Settings.given_flags unlimited patient]
  · exact fun announce => s.effective_located
  · exact s.applyDefaults_again

def sampleEntry : Settings := { port := some 9, user := some "u" }

def sampleCatalog : Catalog := { connections := [("a", sampleEntry)], defaultProtocol := .http }

theorem sampleEntry_completes_alike :
    sampleCatalog.connections.lookup "a" = some sampleEntry ∧
      ∃ done notices, sampleCatalog.connection "a" = .ok (done, notices) ∧
        (Registry.resolve { catalog := sampleCatalog } (some "a") Registry.accepting).1.made =
          [done] ∧
        sampleEntry.flags.settings sampleCatalog = .ok (done, notices) ∧ done.port = some 9 ∧
        done.protocol = some .http ∧
        notices = ["no host specified, using localhost",
          "no namespace specified, using default", "no database specified, using default"] := by
  have entry : sampleCatalog.connections.lookup "a" = some sampleEntry := rfl
  obtain ⟨⟨done, notices, completed, named, -, registered, typed⟩, -, -⟩ :=
    paths_complete_alike sampleCatalog sampleEntry
  have made := (registered { catalog := sampleCatalog } "a" Registry.accepting rfl (by decide)
    (Or.inl entry)).1 rfl
  exact ⟨entry, done, notices, named "a" entry, made.1, typed rfl rfl,
    completed.given .port 9 rfl, completed.protocol, completed.notices⟩

end RecordClient
