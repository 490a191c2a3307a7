import RecordClient.Proofs.Settings.Registry
/-!
# What the registry holds

A run has stored connections under names, as its answers show. A registry holds under each name
the connection that was stored there last, and as the current one the last of all
(`run_consistent`).
-/
namespace RecordClient.Registry

/-! ### What a run stores -/

/-- What a step has stored, by its answer: the connection that was handed in, or one that was made
for the name asked for. -/
def stores : Step → Outcome → List (String × Shared)
  | .register name _, ⟨.ok (some shared), _, _⟩ => [(name, shared)]
  | .resolve name _, ⟨.ok (some shared), _ :: _, _⟩ => [((asked? name).getD defaultName, shared)]
  | _, _ => []

def storedBy (steps : List Step) (outcomes : List Outcome) : List (String × Shared) :=
  (steps.zip outcomes).flatMap fun (s, o) => stores s o

/-- The connection that was stored last under a name. -/
def lastUnder (name : String) (history : List (String × Shared)) : Option Shared :=
  ((history.filter fun entry => entry.1 = name).getLast?).map Prod.snd

theorem lastUnder_concat (name key : String) (history : List (String × Shared)) (shared : Shared) :
    lastUnder name (history ++ [(key, shared)]) =
      if name = key then some shared else lastUnder name history := by
  unfold lastUnder
  rw [List.filter_append]
  by_cases h : name = key
  · simp [h]
  · have other : ¬ key = name := fun same => h same.symm
    simp [h, other]

/-- What a registry holds is what was stored, and its connections are numbered in that order. -/
structure Follows (history : List (String × Shared)) (r : Registry) : Prop where
  held : ∀ name, r.held? name = lastUnder name history
  current : r.current = history.getLast?.map Prod.snd
  numbers : history.map (fun entry => entry.2.number) = List.range r.stored

/-- A step stores one connection, or nothing that a later step could tell. -/
theorem step_cases (r : Registry) (s : Step) :
    (stores s (r.step s).1 = [] ∧ Alike (r.step s).2 r) ∨
    ∃ name p, stores s (r.step s).1 = [(name, (r.store name p).1)] ∧
      (r.step s).2 = (r.store name p).2 := by
  cases s with
  | register name p => exact Or.inr ⟨name, p, rfl, rfl⟩
  | current => exact Or.inl ⟨rfl, Alike.refl r⟩
  | resolve name connect =>
    rcases r.resolve_cases name connect with ⟨shared, -, answered⟩ | same
    · rw [step, answered]
      exact Or.inl ⟨rfl, Alike.refl r⟩
    rw [step, same]
    have ends := established r ((asked? name).getD defaultName) connect
    generalize r.establish ((asked? name).getD defaultName) connect = answer at ends ⊢
    cases ends with
    | cached | unknown | failed => exact Or.inl ⟨rfl, (Alike.refl r).withSlot_left _⟩
    | made => exact Or.inr ⟨_, _, rfl, rfl⟩

namespace Follows

variable {history : List (String × Shared)} {r : Registry}

theorem of_alike {a : Registry} (h : Follows history r) (same : Alike a r) : Follows history a where
  held name := (same.held name).trans (h.held name)
  current := same.current.trans h.current
  numbers := h.numbers.trans (congrArg List.range same.stored.symm)

theorem store (h : Follows history r) (name : String) (p : Protocol) :
    Follows (history ++ [(name, (r.store name p).1)]) (r.store name p).2 where
  held other := by rw [held?_store, lastUnder_concat, h.held other]
  current := by rw [List.getLast?_concat]; rfl
  numbers := by
    rw [List.map_append, h.numbers]
    exact List.range_succ.symm

theorem step (h : Follows history r) (s : Step) :
    Follows (history ++ stores s (r.step s).1) (r.step s).2 := by
  rcases step_cases r s with ⟨nothing, same⟩ | ⟨name, p, stored, next⟩
  · rw [nothing, List.append_nil]
    exact h.of_alike same
  · rw [stored, next]
    exact h.store name p

theorem run (h : Follows history r) (steps : List Step) :
    Follows (history ++ storedBy steps (r.run steps).1) (r.run steps).2 := by
  induction steps generalizing history r with
  | nil => simpa [storedBy, Registry.run] using h
  | cons s rest ih =>
    have later := ih (h.step s)
    rw [List.append_assoc] at later
    exact later

end Follows

example : ((sampleRegistry.run [.resolve (some "a") refusing, .resolve none accepting,
    .register "a" .http, .resolve (some "a") refusing]).1.map Outcome.result) =
      [.error (.wire .closed), .ok (some ⟨0, .webSocket⟩), .ok (some ⟨1, .http⟩),
        .ok (some ⟨1, .http⟩)] := rfl

end RecordClient.Registry
