import RecordClient.Proofs.Results
import RecordClient.Proofs.Settings.Completion
import RecordClient.Shell.Flags
/-!
# Arguments that are heeded

Which of the values that are given to the shell reach the settings that it connects with. All do,
unless a connection of the catalog is named: then only those that its entry has anyway
(`flags_heeded_iff`).
-/
namespace RecordClient.Shell.Flags

/-- Each value that is given, but for the name of a connection, is the one of the settings. -/
structure Heeded (fs : Flags) (s : Settings) : Prop where
  host : ∀ v, fs.host = some v → s.host = some v
  port : ∀ v, fs.port = some v → s.port = some v
  user : ∀ v, fs.user = some v → s.user = some v
  password : ∀ v, fs.password = some v → s.password = some v
  ns : ∀ v, fs.ns = some v → s.ns = some v
  database : ∀ v, fs.database = some v → s.database = some v
  protocol : ∀ v, fs.protocol = some v → s.protocol = some v

/-- Each value that is given, but for the name of a connection, is one that an entry of a catalog
has or takes by default. -/
structure Repeats (fs : Flags) (c : Catalog) (entry : Settings) : Prop where
  user : ∀ v, fs.user = some v → entry.user = some v
  password : ∀ v, fs.password = some v → entry.password = some v
  ns : ∀ v, fs.ns = some v → entry.effectiveNamespace = v
  database : ∀ v, fs.database = some v → entry.effectiveDatabase = v
  protocol : ∀ v, fs.protocol = some v → entry.protocol.getD c.defaultProtocol = v

/-! ### Accepted arguments -/

theorem complete_eq_session {fs given : Flags} (h : fs.complete = .ok (.session given)) :
    given = fs ∧ ¬(fs.connection.isSome ∧ (fs.host.isSome ∨ fs.port.isSome)) := by
  unfold complete at h
  split at h
  · cases h
  · next free =>
    cases h
    exact ⟨rfl, free⟩

/-- Arguments that are read to the end have no conflict. -/
theorem complete_of_read {fs given : Flags} {arguments : List String}
    (h : fs.read arguments = .ok (.session given)) : given.complete = .ok (.session given) := by
  fun_induction read fs arguments with
  | case1 fs | case2 fs =>
    obtain ⟨rfl, -⟩ := complete_eq_session h
    exact h
  | case5 fs argument rest parts f value named i asked =>
    -- The only options that end the reading ask for help or for the version.
    cases h
    cases f <;> cases asked
  | case6 fs argument rest parts f value _ named ih
  | case8 fs argument parts f value rest _ _ _ ih =>
    obtain ⟨next, -, later⟩ := bind_eq_ok.mp h
    exact ih next later
  | case3 | case4 | case7 | case9 => cases h

/-! ### Settings -/

theorem settings_of_named {fs : Flags} {c : Catalog} {name : String} {s : Settings}
    {notices : List String} (named : fs.connection = some name)
    (found : fs.settings c = .ok (s, notices)) :
    ∃ entry, c.connections.lookup name = some entry ∧ c.complete entry = (s, notices) := by
  rw [settings, named] at found
  dsimp only at found
  unfold Catalog.connection at found
  split at found
  · next entry known =>
    exact ⟨entry, known, Except.ok.inj found⟩
  · cases found

theorem heeded_of_free {fs : Flags} {c : Catalog} {s : Settings} {notices : List String}
    (completed : Completed c fs.given s notices) : fs.Heeded s where
  host := completed.given .host
  port := completed.given .port
  user v given := completed.user.trans given
  password v given := completed.password.trans given
  ns := completed.given .ns
  database := completed.given .database
  protocol v given := by
    have chosen : fs.given.protocol = some v := given
    rw [completed.protocol, chosen]
    rfl

theorem heeded_iff_repeats {fs : Flags} {c : Catalog} {entry s : Settings} {notices : List String}
    (completed : Completed c entry s notices) (elsewhere : fs.host = none ∧ fs.port = none) :
    fs.Heeded s ↔ fs.Repeats c entry := by
  have ns : s.ns = some entry.effectiveNamespace := completed.located .ns
  have database : s.database = some entry.effectiveDatabase := completed.located .database
  constructor
  · intro heeded
    exact
      { user := fun v given => completed.user.symm.trans (heeded.user v given)
        password := fun v given => completed.password.symm.trans (heeded.password v given)
        ns := fun v given => Option.some.inj (ns.symm.trans (heeded.ns v given))
        database := fun v given => Option.some.inj (database.symm.trans (heeded.database v given))
        protocol := fun v given =>
          Option.some.inj (completed.protocol.symm.trans (heeded.protocol v given)) }
  · intro repeats
    exact
      { host := fun v given => by (cases elsewhere.1.symm.trans given)
        port := fun v given => by (cases elsewhere.2.symm.trans given)
        user := fun v given => completed.user.trans (repeats.user v given)
        password := fun v given => completed.password.trans (repeats.password v given)
        ns := fun v given => ns.trans (congrArg some (repeats.ns v given))
        database := fun v given => database.trans (congrArg some (repeats.database v given))
        protocol := fun v given =>
          completed.protocol.trans (congrArg some (repeats.protocol v given)) }

/-- Of accepted arguments that lead to settings, each value reaches the settings when no connection
of the catalog is named. When one is, that is so exactly if the values are those of its entry: all
others are passed over. -/
theorem flags_heeded_iff {fs : Flags} (accepted : fs.complete = .ok (.session fs)) {c : Catalog}
    {s : Settings} {notices : List String} (found : fs.settings c = .ok (s, notices)) :
    fs.Heeded s ↔ fs.connection = none ∨
      ∃ name entry, fs.connection = some name ∧ c.connections.lookup name = some entry ∧
        fs.Repeats c entry := by
  cases choice : fs.connection with
  | none =>
    rw [settings_of_free choice] at found
    have completed := c.complete_completed fs.given
    rw [Except.ok.inj found] at completed
    exact iff_of_true (heeded_of_free completed) (Or.inl rfl)
  | some name =>
    obtain ⟨entry, known, same⟩ := settings_of_named choice found
    have completed := c.complete_completed entry
    rw [same] at completed
    have elsewhere : fs.host = none ∧ fs.port = none := by
      simpa [choice] using (complete_eq_session accepted).2
    simp [heeded_iff_repeats completed elsewhere, known]

def sampleMain : Catalog := { connections := [("main", { ns := some "prod" })] }

def sampleFlags (ns : String) : Flags := { connection := some "main", ns := some ns }

def sampleSettings : Settings := (sampleMain.complete { ns := some "prod" }).1

theorem repeated_namespace_heeded :
    ofArguments ["-c", "main", "--namespace", "prod"] = .ok (.session (sampleFlags "prod")) ∧
      (sampleFlags "prod").complete = .ok (.session (sampleFlags "prod")) ∧
      (∃ notices, (sampleFlags "prod").settings sampleMain = .ok (sampleSettings, notices)) ∧
      (sampleFlags "prod").Heeded sampleSettings := by
  have read : ofArguments ["-c", "main", "--namespace", "prod"] =
      .ok (.session (sampleFlags "prod")) := by cbv
  have accepted := complete_of_read read
  have found : (sampleFlags "prod").settings sampleMain =
      .ok (sampleSettings, (sampleMain.complete { ns := some "prod" }).2) := rfl
  refine ⟨read, accepted, ⟨_, found⟩, (flags_heeded_iff accepted found).mpr (Or.inr ?_)⟩
  exact ⟨"main", { ns := some "prod" }, rfl, rfl, nofun, nofun,
    fun v given => Option.some.inj given, nofun, nofun⟩

/-- The namespace that is asked for is accepted, and the one of the entry is taken. -/
theorem namespace_passed_over :
    ofArguments ["-c", "main", "--namespace", "test"] = .ok (.session (sampleFlags "test")) ∧
      (∃ notices, (sampleFlags "test").settings sampleMain = .ok (sampleSettings, notices)) ∧
      sampleSettings.ns = some "prod" ∧ ¬(sampleFlags "test").Heeded sampleSettings := by
  refine ⟨by cbv, ⟨_, rfl⟩, rfl, fun heeded => ?_⟩
  have wrong : some "prod" = some "test" := heeded.ns "test" rfl
  exact absurd wrong (by decide)

end RecordClient.Shell.Flags
