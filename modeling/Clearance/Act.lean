import Clearance.Failure

/-!
# Clearance — Actions

An action changes a state and answers a value or fails.  What it did before it failed stays done, as
it does in a store that was written to.
-/

namespace Clearance

abbrev Act (σ α : Type) := ExceptT Failure (StateM σ) α

namespace Act

/-- The answer of an action from a state, with the state it leaves. -/
def go {σ α : Type} (a : Act σ α) (s : σ) : Except Failure α × σ := a.run.run s

/-- The action that is given by its answer and the state it leaves. -/
def of {σ α : Type} (f : σ → Except Failure α × σ) : Act σ α := ExceptT.mk (fun s => f s)

@[simp] theorem go_of {σ α : Type} (f : σ → Except Failure α × σ) (s : σ) : (of f).go s = f s := rfl

/-- Answers or fails as given, and changes nothing. -/
def lift {σ α : Type} (r : Except Failure α) : Act σ α := of fun s => (r, s)

/-- An action on a part of the state. -/
def on {σ τ α : Type} (part : σ → τ) (put : τ → σ → σ) (a : Act τ α) : Act σ α :=
  of fun s => let (r, t) := a.go (part s); (r, put t s)

/-- Answers how an action ended, and does not fail. -/
def attempt {σ α : Type} (a : Act σ α) : Act σ (Except Failure α) :=
  of fun s => let (r, t) := a.go s; (.ok r, t)

end Act

end Clearance
