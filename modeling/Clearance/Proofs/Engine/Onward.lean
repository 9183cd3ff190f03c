import Clearance.Proofs.Engine.Effect

/-!
# Clearance — Proofs — Engine — Nodes only advance

Whatever notifications are handled, a node of the store is moved onward or left as it is:

* `Engine.Effect.onward`: by one operation;
* `Engine.Steady.onward_after`, `Engine.Steady.onward_reaches`, `Engine.node_moves_onward`: by any
  number of them.
-/

namespace Clearance

namespace Engine

/-- Every node is found again, moved onward. -/
def AllOnward (e e' : Engine) : Prop :=
  ∀ id n, e.workflows.nodes.get? id = some n →
    ∃ n', e'.workflows.nodes.get? id = some n' ∧ n.Onward n'

theorem AllOnward.refl (e : Engine) : AllOnward e e := fun _ n hn => ⟨n, hn, .refl n⟩

theorem AllOnward.trans {e e₁ e' : Engine} (h₁ : AllOnward e e₁) (h₂ : AllOnward e₁ e') :
    AllOnward e e' := by
  intro id n hn
  obtain ⟨n₁, hn₁, ho₁⟩ := h₁ id n hn
  obtain ⟨n₂, hn₂, ho₂⟩ := h₂ id n₁ hn₁
  exact ⟨n₂, hn₂, ho₁.trans ho₂⟩

theorem AllOnward.of_same {e e' : Engine}
    (h : e.workflows.Becomes e'.workflows e.workflows.nodes.get?) : AllOnward e e' :=
  fun id n hn => ⟨n, (h.nodes id).trans hn, .refl n⟩

/-- One operation moves nodes onward. -/
theorem Effect.onward {e e' : Engine} {op : Op} (he : Effect e op e') :
    AllOnward e e' := by
  cases he with
  | created k =>
      intro id n hn
      exact ⟨n, k.get?_eq_some.mpr (.inr hn), .refl n⟩
  | uncreated hs _ => exact .of_same hs
  | activated _ => exact fun _ n hn => ⟨n, hn, .refl n⟩
  | served _ _ => exact fun _ n hn => ⟨n, hn, .refl n⟩
  | advanced hop ht k =>
      intro id x hx
      have hsame := hop.rest.1
      obtain ⟨x', hx', ho⟩ := Lookup.onward_advance (hsame ▸ ht.found)
        (WorkflowNode.onward_of_take? ht.taken) (hsame ▸ hx)
      exact ⟨x', (k.workflows.nodes id).trans hx', ho⟩
  | refused _ _ hs _ => exact .of_same hs
  | idle => exact fun _ n hn => ⟨n, hn, .refl n⟩
  | outside _ _ => exact fun _ n hn => ⟨n, hn, .refl n⟩
  | discarded _ _ => exact fun _ n hn => ⟨n, hn, .refl n⟩

/-- A run moves nodes onward. -/
theorem Steady.onward_after {e : Engine} (h : e.Steady) (ops : List Op) :
    AllOnward e (after ops e) := by
  induction ops generalizing e with
  | nil => exact .refl e
  | cons op rest ih =>
      have heffect := effect_perform h op
      exact heffect.onward.trans (ih (h.effect heffect))

theorem Steady.onward_reaches {admits : Engine → Op → Prop} {e e' : Engine} (h : e.Steady)
    (hr : Reaches admits e e') : AllOnward e e' :=
  h.invariant hr (.refl e) fun _ _ he ho => ho.trans he.onward

/-- **Nodes only advance.** However the engine goes on from where it is, a node stays the same node,
never moves back, does not change at all once it is completed or failed, and shows an outcome only
when it is completed. -/
theorem node_moves_onward {containers notifications : Nat} {admits : Engine → Op → Prop}
    {e e' : Engine} (h : Reaches admits (ofCapacity containers notifications) e)
    (h' : Reaches admits e e') {id : NodeId} {n : WorkflowNode}
    (hn : e.workflows.nodes.get? id = some n) :
    ∃ n', e'.workflows.nodes.get? id = some n' ∧
      n'.id = n.id ∧ n'.owner = n.owner ∧ n'.templateId = n.templateId ∧ n'.kind = n.kind ∧
      n'.config = n.config ∧ n'.dependencies = n.dependencies ∧ n'.unlockMode = n.unlockMode ∧
      n'.terminal = n.terminal ∧
      n.state.Forward n'.state ∧
      (n.state.isTerminal = true →
        n'.state = n.state ∧ n'.extendedState = n.extendedState ∧ n'.outcome = n.outcome) ∧
      (n'.outcome ≠ none → n'.state = .completed) := by
  -- only the second run matters, with what the first left as its start
  have hsteady := (steady_ofCapacity containers notifications).reaches h
  obtain ⟨n', hn', ho⟩ := hsteady.onward_reaches h' id n hn
  have hfit := (hsteady.reaches h').sound.fit id n' hn'
  obtain ⟨_, _, _, hkin⟩ := ho.kin
  refine ⟨n', hn', by rw [hkin], by rw [hkin], by rw [hkin], by rw [hkin], by rw [hkin],
    by rw [hkin], by rw [hkin], by rw [hkin], ho.forward, fun ht => ?_, fun hout => ?_⟩
  · rw [ho.terminal ht]
    exact ⟨rfl, rfl, rfl⟩
  · by_contra hstate
    exact hout (hfit.outcome hstate)

/-- An engine in which the first node of `permit` was granted. -/
def granted : Engine :=
  after [.create .consignment permit {},
    .notify ⟨⟨"$1-apply"⟩, some "COMPLETED", none, some "GRANTED", {}⟩] (ofCapacity 1 1)

/-- A form that was granted stays so when its failure is reported. -/
theorem node_moves_onward_granted :
    ∃ n n', granted.workflows.nodes.get? ⟨"$1-apply"⟩ = some n ∧
      (after [.notify ⟨⟨"$1-apply"⟩, some "FAILED", some "LATE", none, {}⟩]
        granted).workflows.nodes.get? ⟨"$1-apply"⟩ = some n' ∧
      n'.state = .completed ∧ n'.extendedState = none ∧ n'.outcome = some "GRANTED" := by
  have hstate : (granted.workflows.nodes.get? ⟨"$1-apply"⟩).map
      (fun n => (n.state, n.extendedState, n.outcome)) =
        some (.completed, none, some "GRANTED") := by
    cbv
  obtain ⟨n, hn, hshows⟩ := Option.map_eq_some_iff.mp hstate
  have hreach : Reaches (fun _ _ => True) (ofCapacity 1 1) granted :=
    .step (.step .refl _ trivial) _ trivial
  obtain ⟨n', hn', -, -, -, -, -, -, -, -, -, hstays, -⟩ :=
    node_moves_onward hreach (.step .refl (.notify _) trivial) hn
  obtain ⟨hs, hrest⟩ := Prod.mk.inj hshows
  obtain ⟨hx, ho⟩ := Prod.mk.inj hrest
  obtain ⟨hs', hx', ho'⟩ := hstays (by rw [hs]; rfl)
  exact ⟨n, n', hn, hn', hs'.trans hs, hx'.trans hx, ho'.trans ho⟩

end Engine

end Clearance
