import RecordClient.Connection.Call
/-!
# Plans

An operation of a connection is a `Plan`: it ends with a result, or makes a call and goes on with
the reply. A plan says which calls are made, in which order and depending on which replies, without
saying over which wire. `Plan.run` carries it out and keeps every call with its reply.
-/
namespace RecordClient

inductive Plan (α : Type) where
  | done (result : Except Error α)
  | call (c : Call) (next : Reply → Plan α)

namespace Plan

variable {α β σ : Type}

def bind (p : Plan α) (f : α → Plan β) : Plan β :=
  match p with
  | .done (.ok a) => f a
  | .done (.error e) => .done (.error e)
  | .call c next => .call c fun reply => (next reply).bind f

instance : Monad Plan where
  pure a := .done (.ok a)
  bind := bind

theorem bind_call (c : Call) (next : Reply → Plan α) (f : α → Plan β) :
    bind (.call c next) f = .call c fun reply => (next reply).bind f := rfl

theorem bind_pure_self (p : Plan α) : bind p (fun a => .done (.ok a)) = p := by
  induction p with
  | done result => cases result <;> rfl
  | call c next ih => rw [bind_call]; exact congrArg _ (funext ih)

theorem bind_bind (p : Plan α) (f : α → Plan β) {γ : Type} (g : β → Plan γ) :
    bind (bind p f) g = bind p fun a => bind (f a) g := by
  induction p with
  | done result => cases result <;> rfl
  | call c next ih => simp only [bind_call]; exact congrArg _ (funext ih)

instance : LawfulMonad Plan :=
  LawfulMonad.mk' Plan bind_pure_self (fun _ _ => rfl) (fun p f g => bind_bind p f g)

def fail (e : Error) : Plan α := .done (.error e)

def check (r : Except Refusal α) : Plan α := .done (r.mapError .refusal)

def request (c : Call) : Plan Json := .call c .done

/-- What a plan did: its result, its calls with their replies, and the state of the wire. -/
structure Outcome (σ α : Type) where
  result : Except Error α
  exchanges : List (Call × Reply)
  state : σ

def Outcome.behind (before : List (Call × Reply)) (o : Outcome σ α) : Outcome σ α :=
  { o with exchanges := before ++ o.exchanges }

def run (perform : Perform σ) : Plan α → σ → Outcome σ α
  | .done result, s => ⟨result, [], s⟩
  | .call c next, s =>
    let (reply, s) := perform c s
    (run perform (next reply) s).behind [(c, reply)]

theorem run_call (perform : Perform σ) (c : Call) (next : Reply → Plan α) (s : σ) :
    run perform (.call c next) s =
      (run perform (next (perform c s).1) (perform c s).2).behind [(c, (perform c s).1)] := rfl

theorem run_bind_ok {perform : Perform σ} {p : Plan α} {s t : σ} {a : α}
    {before : List (Call × Reply)} (h : run perform p s = ⟨.ok a, before, t⟩) (f : α → Plan β) :
    run perform (p >>= f) s = (run perform (f a) t).behind before := by
  induction p generalizing s before with
  | done result => cases h; rfl
  | call c next ih =>
    rcases hr : run perform (next (perform c s).1) (perform c s).2 with ⟨result, calls, state⟩
    rw [run_call, hr] at h
    cases h
    exact congrArg (Outcome.behind [(c, (perform c s).1)]) (ih _ hr)

theorem run_bind_error {perform : Perform σ} {p : Plan α} {s t : σ} {e : Error}
    {before : List (Call × Reply)} (h : run perform p s = ⟨.error e, before, t⟩) (f : α → Plan β) :
    run perform (p >>= f) s = ⟨.error e, before, t⟩ := by
  induction p generalizing s before with
  | done result => cases h; rfl
  | call c next ih =>
    rcases hr : run perform (next (perform c s).1) (perform c s).2 with ⟨result, calls, state⟩
    rw [run_call, hr] at h
    cases h
    exact congrArg (Outcome.behind [(c, (perform c s).1)]) (ih _ hr)

end Plan

end RecordClient
