import Clearance.Act
import Mathlib.Tactic.Common

/-!
# Clearance — Proofs — How actions end

The rules by which the proofs walk through an action.

* `Act.Ends` says what holds of the answer and of the state left behind, or of the failure and that
  state.  `ends_bind` and its companions take an action apart into its steps.
* `Act.Within` keeps an action to a relation between the state before and after, however it ends;
  for a transitive relation it is shown step by step (`Within.bind`).
* `Act.Closed`: a property that an action has as soon as its steps have it.
* `Act.Alike` compares two runs: both answer, or both fail with the same failure.  An action that
  `Respects` a relation does not tell related states apart.
-/

namespace Clearance

namespace Act

variable {σ τ α β : Type}

/-! ### Ends -/

/-- How an action ends from a state: with `ok` of its answer and the state it leaves, or with `fail`
of its failure and that state. -/
def Ends (a : Act σ α) (s : σ) (ok : α → σ → Prop) (fail : Failure → σ → Prop) : Prop :=
  match a.go s with
  | (.ok x, t) => ok x t
  | (.error e, t) => fail e t

section Ends

variable {s : σ} {ok : α → σ → Prop} {fail : Failure → σ → Prop}

@[simp] theorem ends_of (f : σ → Except Failure α × σ) :
    (of f).Ends s ok fail ↔
      match f s with
      | (.ok x, t) => ok x t
      | (.error e, t) => fail e t :=
  Iff.rfl

@[simp] theorem ends_pure (x : α) : (pure x : Act σ α).Ends s ok fail ↔ ok x s := Iff.rfl

@[simp] theorem ends_throw (e : Failure) : (throw e : Act σ α).Ends s ok fail ↔ fail e s := Iff.rfl

@[simp] theorem ends_get {ok : σ → σ → Prop} : (get : Act σ σ).Ends s ok fail ↔ ok s s := Iff.rfl

@[simp] theorem ends_lift (r : Except Failure α) :
    (lift r : Act σ α).Ends s ok fail ↔
      match r with
      | .ok x => ok x s
      | .error e => fail e s := by
  cases r <;> rfl

theorem go_bind (a : Act σ α) (f : α → Act σ β) (s : σ) :
    (a >>= f).go s = match a.go s with
      | (.ok x, t) => (f x).go t
      | (.error e, t) => (.error e, t) := by
  have h : (a >>= f).go s = (ExceptT.bindCont f (a.go s).1 : StateM σ _) (a.go s).2 := rfl
  rw [h]
  -- how it goes on is stuck until it is known how the first action ended
  rcases a.go s with ⟨_ | _, _⟩ <;> rfl

@[simp] theorem go_pure (x : α) (s : σ) : (pure x : Act σ α).go s = (.ok x, s) := rfl

/-- Once a step has answered, what follows goes on from the state it left. -/
theorem go_bind_ok {a : Act σ α} {s t : σ} {x : α} (h : a.go s = (.ok x, t)) (f : α → Act σ β) :
    (a >>= f).go s = (f x).go t := by
  rw [go_bind, h]

theorem go_on {part : σ → τ} {put : τ → σ → σ} {a : Act τ α} {s : σ} {r : Except Failure α} {t : τ}
    (h : a.go (part s) = (r, t)) : (a.on part put).go s = (r, put t s) := by
  rw [on, go_of, h]

theorem go_attempt {a : Act σ α} {s t : σ} {r : Except Failure α} (h : a.go s = (r, t)) :
    a.attempt.go s = (.ok r, t) := by
  rw [attempt, go_of, h]

@[simp] theorem ends_bind (a : Act σ α) (f : α → Act σ β) {ok : β → σ → Prop} :
    (a >>= f).Ends s ok fail ↔ a.Ends s (fun x t => (f x).Ends t ok fail) fail := by
  simp only [Ends, go_bind]
  rcases a.go s with ⟨_ | _, _⟩ <;> rfl

@[simp] theorem ends_map (a : Act σ α) (f : α → β) {ok : β → σ → Prop} :
    (f <$> a).Ends s ok fail ↔ a.Ends s (fun x t => ok (f x) t) fail := by
  rw [← bind_pure_comp, ends_bind]
  rfl

@[simp] theorem ends_on (part : σ → τ) (put : τ → σ → σ) (a : Act τ α) :
    (a.on part put).Ends s ok fail ↔
      a.Ends (part s) (fun x t => ok x (put t s)) (fun e t => fail e (put t s)) := by
  simp only [Ends, on, go_of]
  rcases a.go (part s) with ⟨_ | _, _⟩ <;> rfl

@[simp] theorem ends_attempt (a : Act σ α) {ok : Except Failure α → σ → Prop} :
    a.attempt.Ends s ok fail ↔
      a.Ends s (fun x t => ok (.ok x) t) (fun e t => ok (.error e) t) := by
  simp only [Ends, attempt, go_of]
  rcases a.go s with ⟨_ | _, _⟩ <;> rfl

@[simp] theorem ends_ite {p : Prop} [Decidable p] (a b : Act σ α) :
    (if p then a else b).Ends s ok fail ↔ if p then a.Ends s ok fail else b.Ends s ok fail := by
  split <;> rfl

theorem Ends.mono {a : Act σ α} {ok' : α → σ → Prop} {fail' : Failure → σ → Prop}
    (h : a.Ends s ok fail) (hok : ∀ x t, ok x t → ok' x t)
    (hfail : ∀ e t, fail e t → fail' e t) : a.Ends s ok' fail' := by
  revert h
  unfold Ends
  rcases a.go s with ⟨_ | _, _⟩
  · exact hfail _ _
  · exact hok _ _

/-- How an action ends, told by what it answers. -/
theorem ends_iff {a : Act σ α} :
    a.Ends s ok fail ↔
      (∀ x t, a.go s = (.ok x, t) → ok x t) ∧ ∀ e t, a.go s = (.error e, t) → fail e t := by
  constructor
  · intro h
    refine ⟨fun x t hgo => ?_, fun e t hgo => ?_⟩
    · rw [Ends, hgo] at h
      exact h
    · rw [Ends, hgo] at h
      exact h
  · rintro ⟨hok, hfail⟩
    rw [Ends]
    rcases hgo : a.go s with ⟨e | x, t⟩
    · exact hfail e t hgo
    · exact hok x t hgo

/-- Two accounts of how an action ends hold together. -/
theorem Ends.and {a : Act σ α} {ok' : α → σ → Prop} {fail' : Failure → σ → Prop}
    (h : a.Ends s ok fail) (h' : a.Ends s ok' fail') :
    a.Ends s (fun x t => ok x t ∧ ok' x t) fun e t => fail e t ∧ fail' e t := by
  revert h h'
  unfold Ends
  rcases a.go s with ⟨_ | _, _⟩
  · exact And.intro
  · exact And.intro

/-- What holds of the answer, which may be a failure, and of the state left behind. -/
theorem ends_answer {a : Act σ α} {P : Except Failure α → σ → Prop} :
    a.Ends s (fun x t => P (.ok x) t) (fun e t => P (.error e) t) ↔ P (a.go s).1 (a.go s).2 := by
  unfold Ends
  rcases a.go s with ⟨_ | _, _⟩ <;> rfl

/-- What holds of the state left behind in either case. -/
theorem ends_state {a : Act σ α} {P : σ → Prop} :
    a.Ends s (fun _ t => P t) (fun _ t => P t) ↔ P (a.go s).2 := by
  unfold Ends
  rcases a.go s with ⟨_ | _, _⟩ <;> rfl

/-- What holds of an answer wherever a first step leads, when a failure is of no account. -/
theorem ends_bind_of_forall {a : Act σ α} {f : α → Act σ β} {ok : β → σ → Prop}
    (h : ∀ x t, (f x).Ends t ok fun _ _ => True) : (a >>= f).Ends s ok fun _ _ => True := by
  rw [ends_bind]
  exact ends_iff.mpr ⟨fun x t _ => h x t, fun _ _ _ => trivial⟩

end Ends

/-! ### Within a relation -/

/-- From `s` the action keeps to `R`, and an answer satisfies `V` with the state it leaves. -/
def Within (R : σ → σ → Prop) (V : α → σ → Prop) (a : Act σ α) (s : σ) : Prop :=
  a.Ends s (fun x t => R s t ∧ V x t) (fun _ t => R s t)

namespace Within

variable {R : σ → σ → Prop} {V : α → σ → Prop} {W : β → σ → Prop} {s : σ}

theorem bind {a : Act σ α} {f : α → Act σ β} (htrans : ∀ {s t u}, R s t → R t u → R s u)
    (ha : a.Within R V s) (hf : ∀ x t, R s t → V x t → (f x).Within R W t) :
    (a >>= f).Within R W s := by
  unfold Within at *
  rw [ends_bind]
  refine ha.mono (fun x t h => ?_) fun _ _ h => h
  exact (hf x t h.1 h.2).mono (fun _ _ k => ⟨htrans h.1 k.1, k.2⟩) fun _ _ k => htrans h.1 k

theorem of_pure {x : α} (hR : R s s) (hV : V x s) : (pure x : Act σ α).Within R V s := ⟨hR, hV⟩

end Within

/-! ### Properties of all the steps -/

/-- An action has the property as soon as all its steps have it. -/
structure Closed (P : ∀ {α : Type}, Act σ α → Prop) : Prop where
  pure : ∀ {α : Type} (x : α), P (Pure.pure x : Act σ α)
  throw : ∀ {α : Type} (f : Failure), P (MonadExcept.throw f : Act σ α)
  bind : ∀ {α β : Type} {a : Act σ α} {f : α → Act σ β}, P a → (∀ x, P (f x)) → P (a >>= f)
  attempt : ∀ {α : Type} {a : Act σ α}, P a → P a.attempt

namespace Closed

variable {P : ∀ {α : Type}, Act σ α → Prop} {α β : Type}

theorem lift (h : Closed @P) (r : Except Failure α) : P (Act.lift r : Act σ α) := by
  cases r with
  | error f => exact h.throw f
  | ok x => exact h.pure x

theorem map (h : Closed @P) {a : Act σ α} (ha : P a) (f : α → β) : P (f <$> a) := by
  rw [← bind_pure_comp]
  exact h.bind ha fun x => h.pure (f x)

/-- A check before an action. -/
theorem check (h : Closed @P) {p : Prop} [Decidable p] {f : Failure} {a : PUnit → Act σ α}
    (ha : P (a ⟨⟩)) : P (if p then (MonadExcept.throw f : Act σ PUnit) >>= a else a ⟨⟩) := by
  split
  · -- whatever it fails with, what follows is not reached
    exact h.throw f
  · exact ha

end Closed

/-! ### Two runs side by side -/

/-- From `s` and from `t` the two actions both answer, with `ok` of the answers and the states they
leave, or both fail with the same failure and `fail` of the states. -/
def Alike (a b : Act σ α) (s t : σ) (ok : α → α → σ → σ → Prop) (fail : σ → σ → Prop) : Prop :=
  a.Ends s (fun x s' => b.Ends t (fun y t' => ok x y s' t') fun _ _ => False)
    (fun e s' => b.Ends t (fun _ _ => False) fun e' t' => e = e' ∧ fail s' t')

namespace Alike

variable {a b : Act σ α} {s t : σ} {ok : α → α → σ → σ → Prop} {fail : σ → σ → Prop}

theorem iff_go : a.Alike b s t ok fail ↔
    match a.go s, b.go t with
    | (.ok x, s'), (.ok y, t') => ok x y s' t'
    | (.error e, s'), (.error e', t') => e = e' ∧ fail s' t'
    | _, _ => False := by
  unfold Alike Ends
  rcases a.go s with ⟨_ | _, _⟩ <;> rcases b.go t with ⟨_ | _, _⟩ <;> rfl

theorem bind {f g : α → Act σ β} {ok' : β → β → σ → σ → Prop} (h : a.Alike b s t ok fail)
    (hf : ∀ x y s' t', ok x y s' t' → (f x).Alike (g y) s' t' ok' fail) :
    (a >>= f).Alike (b >>= g) s t ok' fail := by
  rw [iff_go] at h ⊢
  rw [go_bind, go_bind]
  revert h
  rcases a.go s with ⟨_ | x, s'⟩ <;> rcases b.go t with ⟨_ | y, t'⟩
  · exact fun h => h
  · exact False.elim
  · exact False.elim
  · intro h
    exact iff_go.mp (hf x y s' t' h)

theorem mono {ok' : α → α → σ → σ → Prop} {fail' : σ → σ → Prop} (h : a.Alike b s t ok fail)
    (hok : ∀ x y s' t', ok x y s' t' → ok' x y s' t') (hfail : ∀ s' t', fail s' t' → fail' s' t') :
    a.Alike b s t ok' fail' := by
  rw [iff_go] at h ⊢
  revert h
  rcases a.go s with ⟨_ | x, s'⟩ <;> rcases b.go t with ⟨_ | y, t'⟩
  · intro h
    exact ⟨h.1, hfail _ _ h.2⟩
  · exact fun h => h
  · exact fun h => h
  · exact hok _ _ _ _

/-- What the ends of the two runs have in common, when no run answers where the other one fails. -/
theorem of_ends {ok₁ ok₂ : α → σ → Prop} {fail₁ fail₂ : Failure → σ → Prop}
    (ha : a.Ends s ok₁ fail₁) (hb : b.Ends t ok₂ fail₂)
    (hok : ∀ x s' y t', ok₁ x s' → ok₂ y t' → ok x y s' t')
    (hfail : ∀ e s' e' t', fail₁ e s' → fail₂ e' t' → e = e' ∧ fail s' t')
    (hl : ∀ x s' e t', ok₁ x s' → ¬ fail₂ e t') (hr : ∀ e s' y t', fail₁ e s' → ¬ ok₂ y t') :
    a.Alike b s t ok fail := by
  rw [iff_go]
  revert ha hb
  unfold Ends
  rcases a.go s with ⟨_ | x, s'⟩ <;> rcases b.go t with ⟨_ | y, t'⟩
  · exact hfail _ _ _ _
  · exact hr _ _ _ _
  · exact hl _ _ _ _
  · exact hok _ _ _ _

/-- What holds of the state that each run leaves by itself may be added. -/
theorem and_left {P Q : σ → Prop} (h : a.Alike b s t ok fail) (ha : P (a.go s).2)
    (hb : Q (b.go t).2) :
    a.Alike b s t (fun x y s' t' => ok x y s' t' ∧ P s' ∧ Q t')
      fun s' t' => fail s' t' ∧ P s' ∧ Q t' := by
  rw [iff_go] at h ⊢
  revert h ha hb
  rcases a.go s with ⟨_ | x, s'⟩ <;> rcases b.go t with ⟨_ | y, t'⟩
  · intro h ha hb
    exact ⟨h.1, h.2, ha, hb⟩
  · exact fun h _ _ => h
  · exact fun h _ _ => h
  · intro h ha hb
    exact ⟨h, ha, hb⟩

/-- Two runs that answer the same. -/
theorem go_eq {R : σ → σ → Prop} (h : a.Alike b s t (fun x y s' t' => x = y ∧ R s' t') R) :
    (a.go s).1 = (b.go t).1 ∧ R (a.go s).2 (b.go t).2 := by
  rw [iff_go] at h
  revert h
  rcases a.go s with ⟨_ | x, s'⟩ <;> rcases b.go t with ⟨_ | y, t'⟩
  · intro h
    exact ⟨congrArg Except.error h.1, h.2⟩
  · exact False.elim
  · exact False.elim
  · intro h
    exact ⟨congrArg Except.ok h.1, h.2⟩

end Alike

/-- From related states the action answers or fails the same, and leaves related states. -/
def Respects (R : σ → σ → Prop) (a : Act σ α) : Prop :=
  ∀ s t, R s t → a.Alike a s t (fun x y s' t' => x = y ∧ R s' t') R

namespace Respects

variable {R : σ → σ → Prop}

theorem pure (x : α) : Respects R (pure x : Act σ α) := fun _ _ h => ⟨rfl, h⟩

theorem throw (e : Failure) : Respects R (throw e : Act σ α) := fun _ _ h => ⟨rfl, h⟩

theorem bind {a : Act σ α} {f : α → Act σ β} (ha : Respects R a) (hf : ∀ x, Respects R (f x)) :
    Respects R (a >>= f) := by
  refine fun s t h => (ha s t h).bind fun x y s' t' k => ?_
  obtain ⟨rfl, k⟩ := k
  exact hf x s' t' k

theorem of_go {a : Act σ α}
    (h : ∀ s t, R s t → (a.go s).1 = (a.go t).1 ∧ R (a.go s).2 (a.go t).2) : Respects R a := by
  intro s t hR
  have k := h s t hR
  rw [Alike.iff_go]
  revert k
  rcases a.go s with ⟨_ | x, s'⟩ <;> rcases a.go t with ⟨_ | y, t'⟩
  · intro k
    exact ⟨Except.error.inj k.1, k.2⟩
  · intro k
    exact nomatch k.1
  · intro k
    exact nomatch k.1
  · intro k
    exact ⟨Except.ok.inj k.1, k.2⟩

theorem go_eq {a : Act σ α} (ha : Respects R a) {s t : σ} (h : R s t) :
    (a.go s).1 = (a.go t).1 ∧ R (a.go s).2 (a.go t).2 :=
  (ha s t h).go_eq

theorem attempt {a : Act σ α} (ha : Respects R a) : Respects R a.attempt :=
  of_go fun _ _ h => ⟨congrArg Except.ok (ha.go_eq h).1, (ha.go_eq h).2⟩

theorem closed (R : σ → σ → Prop) : Closed (Respects R) where
  pure := .pure
  throw := .throw
  bind := .bind
  attempt := .attempt

/-- An action on a part respects what relates the states if it respects what relates their parts. -/
theorem on {part : σ → τ} {put : τ → σ → σ} {S : τ → τ → Prop} {a : Act τ α} (ha : Respects S a)
    (hpart : ∀ s t, R s t → S (part s) (part t))
    (hput : ∀ s t u v, R s t → S u v → R (put u s) (put v t)) : Respects R (a.on part put) :=
  of_go fun s t h =>
    have k := ha.go_eq (hpart s t h)
    ⟨k.1, hput s t _ _ h k.2⟩

end Respects

end Act

end Clearance
