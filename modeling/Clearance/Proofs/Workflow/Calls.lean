import Clearance.Proofs.Act
import Clearance.Proofs.Workflow.Advance

/-!
# Clearance — Proofs — Workflow — Calls to the store

* `WorkflowStore.Becomes`: what a store may have come to that finds the nodes of a look-up.
* The equations of the calls while none of them fails: the answer and the store that each leaves.
* `WorkflowStore.Sound.put`, `WorkflowStore.Sound.advance`: a store stays sound when a node moves
  onward, and when the dependents that it unlocks are ready as well.
-/

namespace Clearance

namespace WorkflowStore

theorem Becomes.refl (s : WorkflowStore) : s.Becomes s s.nodes.get? :=
  ⟨fun _ => rfl, rfl, fun _ => rfl, rfl⟩

theorem Becomes.get?_eq {s s' : WorkflowStore} {l : Lookup} (h : s.Becomes s' l) :
    s'.nodes.get? = l :=
  funext h.nodes

theorem Becomes.called {s s' : WorkflowStore} {l : Lookup} (h : s.Becomes s' l) :
    s.Becomes { s' with calls := s'.calls + 1 } l :=
  ⟨h.nodes, h.members, h.owner, h.faults⟩

/-- Instances whose contexts and statuses change are the same owners. -/
theorem Becomes.modified {s s' : WorkflowStore} {l : Lookup} (h : s.Becomes s' l) {i : InstanceId}
    {x y : WorkflowInstance} (hx : s'.instances.get? i = some x) (hid : y.id = x.id)
    (hkind : y.kind = x.kind) :
    s.Becomes { s' with instances := s'.instances.insert i y } l := by
  refine ⟨h.nodes, h.members, fun k => ?_, h.faults⟩
  rw [← h.owner k]
  unfold owner?
  rw [Table.get?_insert]
  by_cases hk : k = i
  · subst hk
    rw [if_pos rfl, hx, Option.map_some, Option.map_some, hid, hkind]
  · rw [if_neg hk]

theorem owner?_eq_some {s : WorkflowStore} {i : InstanceId} {o : NodeOwner}
    (h : s.owner? i = some o) :
    ∃ x, s.instances.get? i = some x ∧ x.kind = o.kind ∧ x.id = o.instanceId := by
  obtain ⟨x, hx, rfl⟩ := Option.map_eq_some_iff.mp h
  exact ⟨x, hx, rfl, rfl⟩

/-! ### The calls -/

section Calls

variable {s : WorkflowStore}

/-- The store after a call that changed nothing. -/
def called (s : WorkflowStore) : WorkflowStore := { s with calls := s.calls + 1 }

theorem enter_go (hf : s.faults = .none) (m : Method) : (enter m).go s = (.ok (), s.called) := by
  have hno : ¬ s.faults s.calls m = true := by
    rw [hf]
    exact Bool.false_ne_true
  rw [enter, Act.go_of, if_neg hno]
  rfl

theorem getNode_go (hf : s.faults = .none) (id : NodeId) :
    (getNode id).go s = (.ok (s.nodes.get? id), s.called) :=
  Act.go_bind_ok (enter_go hf _) _

theorem getInstance_go (hf : s.faults = .none) (i : InstanceId) :
    (getInstance i).go s = (.ok (s.instances.get? i), s.called) :=
  Act.go_bind_ok (enter_go hf _) _

theorem listNodes_go (hf : s.faults = .none) {i : InstanceId} {nodes : List WorkflowNode}
    (hn : s.nodesOf? i = some nodes) : (listNodes i).go s = (.ok nodes, s.called) := by
  have hn' : s.called.nodesOf? i = some nodes := hn
  refine (Act.go_bind_ok (enter_go hf _) _).trans ?_
  simp only [nodesOf, Act.go_of, hn']

theorem updateNode_go (hf : s.faults = .none) {n : WorkflowNode}
    (hn : s.nodes.contains n.id = true) :
    (updateNode n).go s = (.ok (), { s.called with nodes := s.nodes.insert n.id n }) := by
  have hn' : s.called.nodes.contains n.id = true := hn
  refine (Act.go_bind_ok (enter_go hf _) _).trans ?_
  simp only [putNode, Act.go_of, if_pos hn']
  rfl

theorem mergeContext_go (hf : s.faults = .none) {i : InstanceId} {x : WorkflowInstance}
    (hx : s.instances.get? i = some x) (updates : Context) :
    (mergeContext i updates).go s =
      (.ok (x.globalContext.merge updates), { s.called with
        instances := s.instances.insert i
          { x with globalContext := x.globalContext.merge updates } }) := by
  have hx' : s.called.instances.get? i = some x := hx
  refine (Act.go_bind_ok (enter_go hf _) _).trans ?_
  simp only [overlay, modifyInstance, Act.go_bind, Act.go_of, hx']
  rfl

theorem setInstanceStatus_go (hf : s.faults = .none) {i : InstanceId} {x : WorkflowInstance}
    (hx : s.instances.get? i = some x) (status : InstanceStatus) :
    (setInstanceStatus i status).go s =
      (.ok (),
        { s.called with instances := s.instances.insert i { x with status := status } }) := by
  have hx' : s.called.instances.get? i = some x := hx
  refine (Act.go_bind_ok (enter_go hf _) _).trans ?_
  simp only [mark, modifyInstance, Act.go_bind, Act.go_of, hx']
  rfl

end Calls

/-! ### One node advances -/

section Advance

variable {s s' : WorkflowStore} {n m : WorkflowNode}

/-- A store stays sound when a node moves onward. -/
theorem Sound.put (h : s.Sound) (hn : s.nodes.get? m.id = some n) (hm : n.Onward m) (hfit : m.Fit)
    (b : s.Becomes s' (Lookup.put s.nodes.get? m)) : s'.Sound := by
  refine h.becomes b (fun id k hk => ?_) fun id k hk => ?_
  · unfold Lookup.put at hk
    split at hk
    · obtain rfl := Option.some.inj hk
      exact ⟨hfit, n, ‹id = m.id› ▸ hn, hm.kin⟩
    · exact ⟨h.fit id k hk, k, hk, .refl k⟩
  · unfold Lookup.put
    split
    · obtain rfl := Option.some.inj (hn.symm.trans (‹id = m.id› ▸ hk))
      exact ⟨m, rfl, hm.kin⟩
    · exact ⟨k, hk, .refl k⟩

/-- …and when the dependents that it unlocks are ready as well. -/
theorem Sound.advance (h : s.Sound) (hn : s.nodes.get? m.id = some n) (hm : n.Onward m)
    (hfit : m.Fit) (b : s.Becomes s' (Lookup.advance s.nodes.get? m)) : s'.Sound := by
  refine h.becomes b (fun id k hk => ?_) fun id k hk => ?_
  · rcases Lookup.of_advance hk with ⟨rfl, rfl⟩ | ⟨k', -, hk', ⟨rfl, -⟩ | ⟨rfl, -, ho⟩⟩
    · exact ⟨hfit, n, hn, hm.kin⟩
    · exact ⟨h.fit id k hk', k, hk', .refl k⟩
    · have hl := (WorkflowNode.opensOn_iff.mp ho).1
      exact ⟨WorkflowNode.fit_opened (h.fit id k' hk') hl, k', hk', k'.kin_opened⟩
  · obtain ⟨k', hk', ho⟩ := Lookup.onward_advance hn hm hk
    exact ⟨k', hk', ho.kin⟩

end Advance

end WorkflowStore

end Clearance
