import Clearance.Proofs.Json.Canonical
import Clearance.Yaml.Core

/-!
# Clearance — Proofs — Yaml — Values as they are loaded

* `Load.Gives`: what holds of whatever is loaded, with one lemma for each step of loading.
* `Tree.json_gives`: a value that is loaded from a node is canonical.
-/

namespace Clearance

namespace Yaml

/-- Whatever is loaded, however many aliases may be followed, has the property `P`. -/
def Load.Gives {α : Type} (load : Load α) (P : α → Prop) : Prop :=
  ∀ left a left', load.run left = some (a, left') → P a

namespace Load.Gives

variable {α β : Type} {P : α → Prop}

theorem of_pure {a : α} (h : P a) : Gives (pure a) P := by
  intro left b left' hb
  cases hb
  exact h

theorem of_failure : Gives (failure : Load α) P := fun _ _ _ h => nomatch h

theorem bind {x : Load β} {f : β → Load α} {Q : β → Prop} (hx : x.Gives Q)
    (hf : ∀ b, Q b → (f b).Gives P) : (x >>= f).Gives P := by
  intro left a left' h
  rw [StateT.run_bind] at h
  obtain ⟨⟨b, mid⟩, hb, ha⟩ := Option.bind_eq_some_iff.mp h
  exact hf b (hx left b mid hb) mid a left' ha

/-- What follows a step of which nothing is known. -/
theorem after {x : Load β} {f : β → Load α} (hf : ∀ b, (f b).Gives P) : (x >>= f).Gives P :=
  bind (fun _ _ _ _ => trivial) fun b _ => hf b

/-- What follows a check. -/
theorem check {p : Prop} [Decidable p] {f : PUnit → Load α} (h : (f ⟨⟩).Gives P) :
    Gives (if p then failure >>= f else f ⟨⟩) P := by
  split
  · exact bind (Q := fun _ => False) of_failure fun _ hno => hno.elim
  · exact h

theorem mapM {load : β → Load α} (h : ∀ x, (load x).Gives P) (l : List β) :
    Gives (l.mapM load) fun ys => ∀ y ∈ ys, P y := by
  induction l with
  | nil => exact of_pure fun _ hy => nomatch hy
  | cons x rest ih =>
      rw [List.mapM_cons]
      exact bind (h x) fun y hy => bind ih fun ys hys =>
        of_pure (List.forall_mem_cons.mpr ⟨hy, hys⟩)

end Load.Gives

namespace Tree

theorem canonical_of_jsonOfCore? {c : Core} {j : Json} (h : jsonOfCore? c = some j) :
    j.Canonical := by
  cases c with
  | null => cases h; exact .null
  | bool b => cases h; exact .bool b
  | int n =>
      obtain ⟨-, h⟩ := Option.ite_none_right_eq_some.mp h
      cases h
      exact .int n
  | double d =>
      cases h
      split
      · exact .double d
      · exact .null
  | text s => cases h; exact .str s

theorem scalar_gives (c : Option Core) :
    Load.Gives (match c.bind jsonOfCore? with
      | some j => pure j
      | none => failure) Json.Canonical := by
  split
  · rename_i hj
    obtain ⟨_, -, hj⟩ := Option.bind_eq_some_iff.mp hj
    exact .of_pure (canonical_of_jsonOfCore? hj)
  · exact .of_failure

/-- **What is loaded is canonical**, whatever node it is loaded from. -/
theorem json_gives (t : Tree) (depth : Nat) (n : Node) : (t.json depth n).Gives Json.Canonical := by
  induction depth generalizing n with
  | zero =>
      rw [json]
      refine .after fun m => ?_
      cases m with
      | scalar => exact scalar_gives _
      | seq => exact .check .of_failure
      | map => exact .check .of_failure
      | «alias» => exact .of_failure
  | succ depth ih =>
      rw [json]
      refine .after fun m => ?_
      cases m with
      | scalar => exact scalar_gives _
      | seq items =>
          exact .check <| .bind (.mapM ih items) fun vs hvs => .of_pure (.arr hvs)
      | map entries =>
          have hfield : ∀ e : Node × Node, Load.Gives (do
              let k ← t.string e.1
              let v ← t.json depth e.2
              pure (k, v)) fun f => f.2.Canonical :=
            fun e => .after fun k => .bind (ih e.2) fun v hv => .of_pure hv
          exact .check <| .bind (.mapM hfield entries) fun fields hfields =>
            .of_pure (.of_sortFields hfields)
      | «alias» => exact .of_failure

end Tree

end Yaml

end Clearance
