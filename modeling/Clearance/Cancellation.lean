import Clearance.Table

/-!
# Clearance — Cancellation

Signals that tell work to give up.  A signal may have a parent, which came before it; raising a signal
cancels it and everything below it, and never anything above or beside it.

`Signals` is the forest.  `SignalDesk` gives names to the sources that raise signals, to the tokens
that observe them, and to those who wait for one.
-/

namespace Clearance

structure Signals where
  /-- The parent of each signal, by its number. -/
  parents : List (Option Nat)
  /-- The signals that were raised. -/
  raised : List Nat
  parent_lt : ∀ n p : Nat, parents[n]? = some (some p) → p < n

namespace Signals

def empty : Signals := ⟨[], [], by simp⟩

instance : Inhabited Signals := ⟨empty⟩

def size (s : Signals) : Nat := s.parents.length

/-- The parent of a signal, which has a smaller number. -/
def parent? (s : Signals) (n : Nat) : Option { p : Nat // p < n } :=
  match h : s.parents[n]? with
  | some (some p) => some ⟨p, s.parent_lt n p h⟩
  | _ => none

/-- A new signal without a parent. -/
def root (s : Signals) : Nat × Signals :=
  (s.size, { s with
    parents := s.parents ++ [none]
    parent_lt := by
      intro n p h
      rw [List.getElem?_append] at h
      split at h
      · exact s.parent_lt n p h
      · simp [List.getElem?_singleton] at h })

/-- A new signal below `p`. -/
def child (s : Signals) (p : Fin s.size) : Nat × Signals :=
  (s.size, { s with
    parents := s.parents ++ [some p.val]
    parent_lt := by
      intro n q h
      rw [List.getElem?_append] at h
      split at h
      · exact s.parent_lt n q h
      · rename_i hn
        simp only [List.getElem?_singleton] at h
        split at h
        · simp only [Option.some.injEq] at h
          exact h ▸ Nat.lt_of_lt_of_le p.isLt (Nat.le_of_not_lt hn)
        · simp at h })

/-- Raises a signal, which stays raised. -/
def raise (s : Signals) (n : Nat) : Signals := { s with raised := n :: s.raised }

/-- Whether a signal or one above it was raised. -/
def isCancelled (s : Signals) (n : Nat) : Bool :=
  s.raised.contains n ||
    match s.parent? n with
    | some ⟨p, _⟩ => isCancelled s p
    | none => false
termination_by n

end Signals

/-- What a token observes: a signal, or nothing that could ever be raised. -/
inductive CancelToken where
  | never
  | signal (n : Nat)
  deriving DecidableEq, Repr

structure SignalDesk where
  signals : Signals := .empty
  sources : Table String Nat := .empty
  tokens : Table String CancelToken := .empty
  waiting : Table String CancelToken := .empty

namespace SignalDesk

instance : Inhabited SignalDesk := ⟨{}⟩

def isCancelled (d : SignalDesk) : CancelToken → Bool
  | .never => false
  | .signal n => d.signals.isCancelled n

/-- A new source. -/
def addSource (d : SignalDesk) (name : String) : SignalDesk :=
  let (n, signals) := d.signals.root
  { d with signals := signals, sources := d.sources.insert name n }

/-- A new source below another one. -/
def addChild (d : SignalDesk) (parent name : String) : SignalDesk :=
  match d.sources.get? parent with
  | some p =>
    if h : p < d.signals.size then
      let (n, signals) := d.signals.child ⟨p, h⟩
      { d with signals := signals, sources := d.sources.insert name n }
    else d
  | none => d

/-- A token that observes a source. -/
def addToken (d : SignalDesk) (source name : String) : SignalDesk :=
  match d.sources.get? source with
  | some n => { d with tokens := d.tokens.insert name (.signal n) }
  | none => d

/-- A token that observes nothing. -/
def addIdle (d : SignalDesk) (name : String) : SignalDesk :=
  { d with tokens := d.tokens.insert name .never }

/-- Another name for a source, whose signal both raise. -/
def cloneSource (d : SignalDesk) (source name : String) : SignalDesk :=
  match d.sources.get? source with
  | some n => { d with sources := d.sources.insert name n }
  | none => d

/-- Another token that observes what a token observes. -/
def cloneToken (d : SignalDesk) (token name : String) : SignalDesk :=
  match d.tokens.get? token with
  | some t => { d with tokens := d.tokens.insert name t }
  | none => d

def cancel (d : SignalDesk) (source : String) : SignalDesk :=
  match d.sources.get? source with
  | some n => { d with signals := d.signals.raise n }
  | none => d

/-- Lets a source go; its signal stays as it is. -/
def dropSource (d : SignalDesk) (source : String) : SignalDesk :=
  { d with sources := d.sources.erase source }

/-- Waits for the signal of a token; `none` is the name of the token that observes nothing. -/
def wait (d : SignalDesk) (token name : String) : SignalDesk :=
  let t := if token = "none" then some .never else d.tokens.get? token
  match t with
  | some t => { d with waiting := d.waiting.insert name t }
  | none => d

/-- The names in a table whose tokens satisfy `p`, in ascending order. -/
def namesWhere {α : Type} (p : α → Bool) (t : Table String α) : List String :=
  ((t.entries.filter fun e => p e.2).map Prod.fst).mergeSort fun a b => decide (a ≤ b)

/-- The cancelled sources still held. -/
def cancelledSources (d : SignalDesk) : List String :=
  namesWhere d.signals.isCancelled d.sources

def cancelledTokens (d : SignalDesk) : List String := namesWhere d.isCancelled d.tokens

/-- Those who waited and need not wait any longer. -/
def woken (d : SignalDesk) : List String := namesWhere d.isCancelled d.waiting

end SignalDesk

end Clearance
