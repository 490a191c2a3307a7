import RecordClient.Settings.Registry
/-!
# Steps of the registry

How requests end, and when two registries cannot be told apart. A request that fails leaves nothing
behind that a later step could tell (`failed_resolve_leaves_no_trace`).
-/
namespace RecordClient.Registry

/-! ### Slots -/

theorem lookup_fill (slots : List (String × Option Shared)) (name : String) (shared : Shared)
    (other : String) :
    (slots.map (fill name shared)).lookup other =
      (slots.lookup other).map fun slot => if other = name then some shared else slot := by
  induction slots with
  | nil => rfl
  | cons slot rest ih =>
    obtain ⟨key, slot⟩ := slot
    have filled : fill name shared (key, slot) =
        (key, if key = name then some shared else slot) := by
      by_cases h : key = name <;> simp [fill, h]
    rw [List.map_cons, filled, lookup_cons, lookup_cons, ih]
    by_cases h : other = key
    · simp [h]
    · simp [h]

theorem lookup_withSlot (r : Registry) (name other : String) :
    (r.withSlot name).slots.lookup other =
      if other = name then some (r.held? name) else r.slots.lookup other := by
  unfold withSlot held?
  split
  · next slot found =>
    by_cases h : other = name
    · simp [h, found]
    · simp [h]
  · next missing =>
    rw [lookup_cons, missing]
    rfl

theorem withSlot_withSlot (r : Registry) (name : String) :
    (r.withSlot name).withSlot name = r.withSlot name := by
  have found := lookup_withSlot r name name
  rw [if_pos rfl] at found
  rw [withSlot, found]

@[simp] theorem catalog_withSlot (r : Registry) (name : String) :
    (r.withSlot name).catalog = r.catalog := by
  unfold withSlot; split <;> rfl

@[simp] theorem current_withSlot (r : Registry) (name : String) :
    (r.withSlot name).current = r.current := by
  unfold withSlot; split <;> rfl

@[simp] theorem stored_withSlot (r : Registry) (name : String) :
    (r.withSlot name).stored = r.stored := by
  unfold withSlot; split <;> rfl

@[simp] theorem held?_withSlot (r : Registry) (name other : String) :
    (r.withSlot name).held? other = r.held? other := by
  rw [held?, lookup_withSlot]
  by_cases h : other = name
  · simp [h]
  · simp [h, held?]

theorem held?_store (r : Registry) (name : String) (p : Protocol) (other : String) :
    (r.store name p).2.held? other =
      if other = name then some (r.store name p).1 else r.held? other := by
  rw [held?, store, lookup_fill, lookup_withSlot]
  by_cases h : other = name
  · simp [h]
  · simp [h, held?]

theorem store_withSlot (r : Registry) (name : String) (p : Protocol) :
    (r.withSlot name).store name p = r.store name p := by
  simp only [store, withSlot_withSlot, stored_withSlot]

/-! ### Requests -/

theorem establish_eq (r : Registry) (name : String) (connect : Connector) :
    r.establish name connect =
      match r.held? name with
      | some shared => ({ result := .ok (some shared) }, r.withSlot name)
      | none =>
        match settings r.catalog name with
        | .error e => ({ result := .error (.setup e) }, r.withSlot name)
        | .ok (s, notices) =>
          match connect s with
          | .error e => ({ result := .error e, made := [s], notices }, r.withSlot name)
          | .ok () =>
            ({ result := .ok (some (r.store name s.effectiveProtocol).1), made := [s], notices },
              (r.store name s.effectiveProtocol).2) := by
  unfold establish
  dsimp only
  rw [held?_withSlot, catalog_withSlot]
  cases r.held? name with
  | some shared => rfl
  | none =>
    cases settings r.catalog name with
    | error e => rfl
    | ok found =>
      dsimp only
      cases connect found.1 with
      | error e => rfl
      | ok ready =>
        dsimp only
        rw [store_withSlot]

/-- The ways in which a request for a name ends. -/
inductive Established (r : Registry) (name : String) (connect : Connector) :
    Outcome × Registry → Prop where
  | cached {shared : Shared} (held : r.held? name = some shared) :
    Established r name connect ({ result := .ok (some shared) }, r.withSlot name)
  | unknown {e : SetupError} (empty : r.held? name = none)
    (unset : settings r.catalog name = .error e) :
    Established r name connect ({ result := .error (.setup e) }, r.withSlot name)
  | failed {s : Settings} {notices : List String} {e : Error} (empty : r.held? name = none)
    (set : settings r.catalog name = .ok (s, notices)) (refuses : connect s = .error e) :
    Established r name connect ({ result := .error e, made := [s], notices }, r.withSlot name)
  | made {s : Settings} {notices : List String} (empty : r.held? name = none)
    (set : settings r.catalog name = .ok (s, notices)) (connects : connect s = .ok ()) :
    Established r name connect
      ({ result := .ok (some (r.store name s.effectiveProtocol).1), made := [s], notices },
        (r.store name s.effectiveProtocol).2)

theorem established (r : Registry) (name : String) (connect : Connector) :
    Established r name connect (r.establish name connect) := by
  rw [establish_eq]
  split
  · next held => exact .cached held
  · next empty =>
    split
    · next unset => exact .unknown empty unset
    · next set =>
      split
      · next refuses => exact .failed empty set refuses
      · next connects => exact .made empty set connects

theorem asked?_of_ne {name : String} (h : name ≠ currentName) :
    asked? (some name) = some name := by
  simp [asked?, h]

theorem resolve_of_ne (r : Registry) {name : String} (h : name ≠ currentName)
    (connect : Connector) : r.resolve (some name) connect = r.establish name connect := by
  rw [resolve, asked?_of_ne h]

/-- A request is one for a name, or it is answered with the current connection. -/
theorem resolve_cases (r : Registry) (name : Option String) (connect : Connector) :
    (∃ shared, r.current = some shared ∧
      r.resolve name connect = ({ result := .ok (some shared) }, r)) ∨
    r.resolve name connect = r.establish ((asked? name).getD defaultName) connect := by
  unfold resolve
  split
  · next asked => exact Or.inr (by rw [asked]; rfl)
  · next shared _ current => exact Or.inl ⟨shared, current, rfl⟩
  · next asked _ => exact Or.inr (by rw [asked]; rfl)

/-! ### Registries that no step can tell apart -/

/-- Registries with the same connections; one may have empty slots that the other lacks. -/
structure Alike (a b : Registry) : Prop where
  catalog : a.catalog = b.catalog
  held : ∀ name, a.held? name = b.held? name
  current : a.current = b.current
  stored : a.stored = b.stored

namespace Alike

variable {a b : Registry}

theorem refl (r : Registry) : Alike r r := ⟨rfl, fun _ => rfl, rfl, rfl⟩

theorem withSlot_left (h : Alike a b) (name : String) : Alike (a.withSlot name) b where
  catalog := (catalog_withSlot a name).trans h.catalog
  held other := (held?_withSlot a name other).trans (h.held other)
  current := (current_withSlot a name).trans h.current
  stored := (stored_withSlot a name).trans h.stored

theorem symm (h : Alike a b) : Alike b a :=
  ⟨h.catalog.symm, fun name => (h.held name).symm, h.current.symm, h.stored.symm⟩

theorem withSlot (h : Alike a b) (name : String) : Alike (a.withSlot name) (b.withSlot name) :=
  (h.withSlot_left name).symm.withSlot_left name |>.symm

theorem shared_store (h : Alike a b) (name : String) (p : Protocol) :
    (a.store name p).1 = (b.store name p).1 := by
  simp only [Registry.store, h.stored]

theorem store (h : Alike a b) (name : String) (p : Protocol) :
    Alike (a.store name p).2 (b.store name p).2 where
  catalog := (catalog_withSlot a name).trans (h.catalog.trans (catalog_withSlot b name).symm)
  held other := by rw [held?_store, held?_store, h.shared_store name p, h.held other]
  current := congrArg some (h.shared_store name p)
  stored := congrArg (· + 1) h.stored

theorem establish (h : Alike a b) (name : String) (connect : Connector) :
    (a.establish name connect).1 = (b.establish name connect).1 ∧
      Alike (a.establish name connect).2 (b.establish name connect).2 := by
  rw [establish_eq, establish_eq, h.held name, h.catalog]
  split
  · exact ⟨rfl, h.withSlot name⟩
  · split
    · exact ⟨rfl, h.withSlot name⟩
    · next s _ _ =>
      split
      · exact ⟨rfl, h.withSlot name⟩
      · exact ⟨by rw [h.shared_store], h.store name s.effectiveProtocol⟩

theorem resolve (h : Alike a b) (name : Option String) (connect : Connector) :
    (a.resolve name connect).1 = (b.resolve name connect).1 ∧
      Alike (a.resolve name connect).2 (b.resolve name connect).2 := by
  unfold Registry.resolve
  rw [h.current]
  split
  · exact h.establish _ connect
  · exact ⟨rfl, h⟩
  · exact h.establish defaultName connect

theorem step (h : Alike a b) (s : Step) :
    (a.step s).1 = (b.step s).1 ∧ Alike (a.step s).2 (b.step s).2 := by
  cases s with
  | resolve name connect => exact h.resolve name connect
  | register name p => exact ⟨by simp only [Registry.step, h.shared_store], h.store name p⟩
  | current => exact ⟨by simp only [Registry.step, h.current], h⟩

theorem run (h : Alike a b) (steps : List Step) :
    (a.run steps).1 = (b.run steps).1 ∧ Alike (a.run steps).2 (b.run steps).2 := by
  induction steps generalizing a b with
  | nil => exact ⟨rfl, h⟩
  | cons s rest ih =>
    obtain ⟨same, next⟩ := h.step s
    obtain ⟨later, last⟩ := ih next
    exact ⟨by simp only [Registry.run, same, later], last⟩

end Alike

theorem run_append (r : Registry) (before after : List Step) :
    r.run (before ++ after) =
      ((r.run before).1 ++ ((r.run before).2.run after).1, ((r.run before).2.run after).2) := by
  induction before generalizing r with
  | nil => rfl
  | cons s rest ih => simp only [List.cons_append, run, ih]

theorem length_run (r : Registry) (steps : List Step) :
    (r.run steps).1.length = steps.length := by
  induction steps generalizing r with
  | nil => rfl
  | cons s rest ih => simp only [run, List.length_cons, ih]

theorem alike_of_failed {r : Registry} {name : String} {connect : Connector} {e : Error}
    (failed : (r.establish name connect).1.result = .error e) :
    Alike (r.establish name connect).2 r := by
  have ends := established r name connect
  generalize r.establish name connect = answer at failed ends ⊢
  cases ends with
  | cached => cases failed
  | unknown | failed => exact (Alike.refl r).withSlot_left name
  | made => cases failed

theorem alike_of_failed_resolve {r : Registry} {name : Option String} {connect : Connector}
    {e : Error} (failed : (r.resolve name connect).1.result = .error e) :
    Alike (r.resolve name connect).2 r := by
  rcases r.resolve_cases name connect with ⟨shared, -, answered⟩ | same
  · rw [answered] at failed
    cases failed
  · rw [same] at failed ⊢
    exact alike_of_failed failed

/-- A request that fails can be taken out of a run: the other steps answer as before, connect with
the same settings and leave the same current connection, and so does every step that follows. -/
theorem failed_resolve_leaves_no_trace {r : Registry} {before : List Step} {name : Option String}
    {connect : Connector} {e : Error}
    (failed : ((r.run before).2.resolve name connect).1.result = .error e) (after : List Step) :
    (r.run (before ++ after)).1 =
        (r.run (before ++ .resolve name connect :: after)).1.eraseIdx before.length ∧
      (r.run (before ++ after)).2.current =
        (r.run (before ++ .resolve name connect :: after)).2.current ∧
      ∀ later, ((r.run (before ++ after)).2.run later).1 =
        ((r.run (before ++ .resolve name connect :: after)).2.run later).1 := by
  obtain ⟨same, last⟩ := (alike_of_failed_resolve failed).symm.run after
  rw [run_append, run_append]
  refine ⟨?_, last.current, fun later => (last.run later).1⟩
  dsimp only
  rw [List.eraseIdx_append_of_length_le (Nat.le_of_eq (length_run r before)), length_run,
    Nat.sub_self]
  exact congrArg ((r.run before).1 ++ ·) same

def sampleRegistry : Registry := { catalog := { connections := [("a", {})] } }

def accepting : Connector := fun _ => .ok ()

def refusing : Connector := fun _ => .error (.wire .closed)

/-- A connection that could not be made is tried again, and the current one stays. -/
theorem refused_sample_leaves_no_trace :
    ((sampleRegistry.run [.register "m" .http]).2.resolve (some "a") refusing).1.result =
        .error (.wire .closed) ∧
      (sampleRegistry.run [.register "m" .http, .current, .resolve (some "a") accepting]).1 =
        (sampleRegistry.run [.register "m" .http, .resolve (some "a") refusing, .current,
          .resolve (some "a") accepting]).1.eraseIdx 1 := by
  have failed :
      ((sampleRegistry.run [.register "m" .http]).2.resolve (some "a") refusing).1.result =
        .error (.wire .closed) := rfl
  exact ⟨failed,
    (failed_resolve_leaves_no_trace failed [.current, .resolve (some "a") accepting]).1⟩

end RecordClient.Registry
