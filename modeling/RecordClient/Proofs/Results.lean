import Mathlib.Data.List.Forall2
/-!
# Results

What it takes for a sequence of steps that may fail to succeed, and which failure ends it.
-/
namespace RecordClient

theorem bind_eq_ok {ε α β : Type} {x : Except ε α} {f : α → Except ε β} {b : β} :
    (x >>= f) = .ok b ↔ ∃ a, x = .ok a ∧ f a = .ok b := by
  cases x with
  | error e => simp [bind, Except.bind]
  | ok a => simp [bind, Except.bind]

theorem bind_eq_error {ε α β : Type} {x : Except ε α} {f : α → Except ε β} {e : ε} :
    (x >>= f) = .error e ↔ x = .error e ∨ ∃ a, x = .ok a ∧ f a = .error e := by
  cases x with
  | error e => simp [bind, Except.bind]
  | ok a => simp [bind, Except.bind]

variable {α β ε : Type} {f : α → Except ε β}

theorem mapM_eq_ok_iff {xs : List α} {ys : List β} :
    xs.mapM f = .ok ys ↔ List.Forall₂ (fun x y => f x = .ok y) xs ys := by
  induction xs generalizing ys with
  | nil => cases ys <;> simp [pure, Except.pure]
  | cons x xs ih =>
    rw [List.mapM_cons, bind_eq_ok, List.forall₂_cons_left_iff]
    refine exists_congr fun y => ?_
    rw [bind_eq_ok]
    constructor
    · rintro ⟨first, zs, rest, ⟨⟩⟩
      exact ⟨zs, first, ih.mp rest, rfl⟩
    · rintro ⟨zs, first, rest, rfl⟩
      exact ⟨first, zs, ih.mpr rest, rfl⟩

theorem mapM_succeeds_iff {xs : List α} :
    (∃ ys, xs.mapM f = .ok ys) ↔ ∀ x ∈ xs, ∃ y, f x = .ok y := by
  induction xs with
  | nil => exact iff_of_true ⟨[], rfl⟩ (by simp)
  | cons x xs ih =>
    rw [List.forall_mem_cons, ← ih]
    simp only [mapM_eq_ok_iff, List.forall₂_cons_left_iff]
    constructor
    · rintro ⟨_, y, ys, first, rest, rfl⟩
      exact ⟨⟨y, first⟩, ys, rest⟩
    · rintro ⟨⟨y, first⟩, ys, rest⟩
      exact ⟨y :: ys, y, ys, first, rest, rfl⟩

/-- The first item that cannot be read decides. -/
theorem mapM_of_first_error {good rest : List α} {x : α} {e : ε}
    (before : ∀ g ∈ good, ∃ y, f g = .ok y) (bad : f x = .error e) :
    (good ++ x :: rest).mapM f = .error e := by
  obtain ⟨ys, read⟩ := mapM_succeeds_iff.mpr before
  rw [List.mapM_append, read, List.mapM_cons, bad]
  rfl

end RecordClient
