import Clearance.Proofs.Engine.Inception
import Clearance.Proofs.Workflow.Isolation

/-!
# Clearance — Proofs — Engine — Instances are isolated

* `Engine.Handled.shares`: a notification leaves every instance but that of its node as it was.
* `Engine.handle_local`: what it answers, and what it makes of its own instance, depends on that
  instance alone.
* `Engine.instances_are_isolated`: in an engine that is reached, two notifications to nodes of
  different instances answer the same and leave the same store in either order, whatever becomes of
  the task layer.
-/

namespace Clearance

/-- There is the same reason for a refusal wherever the node is found the same. -/
theorem Notification.Refused.of_get? {look look' : Lookup} {note : Notification} {f : Failure}
    (h : note.Refused look f) (hn : look' note.nodeId = look note.nodeId) :
    note.Refused look' f := by
  cases h with
  | unknownLifecycle ht hno => exact .unknownLifecycle ht hno
  | noNode ht hnone => exact .noNode ht (hn.trans hnone)
  | cannotAdvance hk hask hno => exact .cannotAdvance (hn.trans hk) hask hno

namespace Engine

open WorkflowStore Workshop

/-- The engine with another task layer. -/
def amid (e : Engine) (w : Workshop) : Engine := { e with workshop := w }

/-- Two notifications handled one after the other, while the task layer is as it may be when each
of them comes: their answers, and what the store of workflows holds in the end. -/
def inTurn (e : Engine) (first second : Workshop × Notification) :
    (Except Failure Progress × Except Failure Progress) × WorkflowStore :=
  let (r, e₁) := (handle first.2).go (e.amid first.1)
  let (r', e₂) := (handle second.2).go (e₁.amid second.1)
  ((r, r'), e₂.workflows.contents)

/-! ### What one notification changes -/

section Frame

variable {e e' : Engine} {note : Notification} {r : Except Failure Progress} {n : WorkflowNode}

/-- The store is as sound as it was, and its calls fail as little. -/
theorem Handled.sound (h : Handled e note r e') (hs : e.workflows.Sound)
    (hf : e.workflows.faults = .none) : e'.workflows.Sound ∧ e'.workflows.faults = .none := by
  cases h with
  | refused _ => exact ⟨sound_same hs (becomes_asked e _), hf⟩
  | carried ht hx hid =>
      have hset := hs.advance ht.found ht.onward (ht.fit hs) (ht.becomes hs hx hid)
      exact ⟨sound_same hset ⟨fun _ => rfl, rfl, fun _ => rfl, rfl⟩, hf⟩

theorem Handled.sameOutline (h : Handled e note r e') (hs : e.workflows.Sound) :
    e.workflows.SameOutline e'.workflows := by
  cases h with
  | refused _ => exact ⟨rfl, rfl, rfl, rfl⟩
  | carried ht hx hid =>
      have ho := hs.sameOutline_settle ht.found ht.onward (ht.fit hs) (hid ▸ hx) note
      exact ⟨ho.instances, ho.nodes, ho.members, ho.faults⟩

/-- A notification to a node leaves every instance but that of the node as it was. -/
theorem Handled.shares (h : Handled e note r e') (hs : e.workflows.Sound)
    (hn : e.workflows.nodes.get? note.nodeId = some n) {j : InstanceId}
    (hj : j ≠ n.owner.instanceId) : e.workflows.Shares j e'.workflows := by
  cases h with
  | refused _ => exact ⟨rfl, rfl, fun _ _ _ _ => rfl⟩
  | @carried k m x _ ht hx hid =>
      obtain rfl := Option.some.inj ((ht.node ▸ hn).symm.trans ht.found)
      have hframe := hs.shares_settle ht.found ht.onward (ht.fit hs) (hid ▸ hx) hid note
        (ht.onward.kin.owner_eq ▸ hj)
      exact ⟨hframe.inst, hframe.members, hframe.nodes⟩

end Frame

/-! ### What it depends on -/

theorem Takes.of_get? {e f : Engine} {note : Notification} {n m : WorkflowNode}
    (h : e.Takes note n m)
    (hn : f.workflows.nodes.get? note.nodeId = e.workflows.nodes.get? note.nodeId) :
    f.Takes note n m := by
  rw [h.node] at hn
  exact ⟨h.node, hn.trans h.found, h.taken⟩

/-- **Locality.** Engines that share the instance of a node answer a notification to it the same,
and share the instance afterwards. -/
theorem handle_local {e f : Engine} (hs : e.workflows.Sound) (hf : e.workflows.faults = .none)
    (hs' : f.workflows.Sound) (hf' : f.workflows.faults = .none) {note : Notification}
    {n : WorkflowNode} (hn : e.workflows.nodes.get? note.nodeId = some n)
    (h : e.workflows.Shares n.owner.instanceId f.workflows) :
    ((handle note).go f).1 = ((handle note).go e).1 ∧
      ((handle note).go e).2.workflows.Shares n.owner.instanceId
        ((handle note).go f).2.workflows := by
  have hsame : f.workflows.nodes.get? note.nodeId = e.workflows.nodes.get? note.nodeId := by
    rw [hn, h.get? hs hn rfl]
  have hhandled := handle_handled hs hf note
  revert hhandled
  rcases (handle note).go e with ⟨r, e'⟩
  intro hhandled
  cases hhandled with
  | refused hr =>
      obtain ⟨calls, hgo⟩ := handle_refused hs' hf' (hr.of_get? hsame)
      rw [hgo]
      exact ⟨rfl, h.inst, h.members, h.nodes⟩
  | @carried k m x calls ht hx hid =>
      obtain rfl := Option.some.inj ((ht.node ▸ hn).symm.trans ht.found)
      have howner := ht.onward.kin.owner_eq
      rw [← howner] at h ⊢
      obtain ⟨y, calls', hy, -, hgo⟩ := handle_taken hs' hf' (ht.of_get? hsame)
      obtain rfl : y = x := Option.some.inj (hy.symm.trans (h.inst.trans hx))
      have hset := h.settle hs hs' ht.found ht.onward (ht.fit hs) (hid ▸ hx) hid note
      rw [hgo, h.unlockedBy_eq]
      exact ⟨rfl, hset.inst, hset.members, hset.nodes⟩

/-! ### Two notifications -/

theorem exists_handled {e : Engine} (hs : e.workflows.Sound) (hf : e.workflows.faults = .none)
    (w : Workshop) (note : Notification) :
    ∃ r e', (handle note).go (e.amid w) = (r, e') ∧ Handled (e.amid w) note r e' :=
  ⟨_, _, rfl, handle_handled (e := e.amid w) hs hf note⟩

/-- **Either order.** Notifications to nodes of different instances answer the same and leave the
same store in either order. -/
theorem inTurn_comm {e : Engine} (hs : e.workflows.Sound) (hf : e.workflows.faults = .none)
    {note note' : Notification} {n n' : WorkflowNode}
    (hn : e.workflows.nodes.get? note.nodeId = some n)
    (hn' : e.workflows.nodes.get? note'.nodeId = some n')
    (hne : n'.owner.instanceId ≠ n.owner.instanceId) (w₁ w₂ w₃ w₄ : Workshop) :
    (e.inTurn (w₁, note) (w₂, note')).1 = (e.inTurn (w₃, note') (w₄, note)).1.swap ∧
      (e.inTurn (w₁, note) (w₂, note')).2 = (e.inTurn (w₃, note') (w₄, note)).2 := by
  -- `a` comes of the first notification alone and `b` of the second alone
  obtain ⟨ra, a, ha, h₁⟩ := exists_handled hs hf w₁ note
  obtain ⟨rb, b, hb, h₂⟩ := exists_handled hs hf w₃ note'
  obtain ⟨hsa, hfa⟩ := h₁.sound hs hf
  obtain ⟨hsb, hfb⟩ := h₂.sound hs hf
  have hna : a.workflows.nodes.get? note'.nodeId = some n' := (h₁.shares hs hn hne).get? hs hn' rfl
  have hnb : b.workflows.nodes.get? note.nodeId = some n :=
    (h₂.shares hs hn' hne.symm).get? hs hn rfl
  -- and `c` and `d` of one after the other
  obtain ⟨rc, c, hc, h₃⟩ := exists_handled hsa hfa w₂ note'
  obtain ⟨rd, d, hd, h₄⟩ := exists_handled hsb hfb w₄ note
  have hleft := handle_local (e := e.amid w₁) (f := b.amid w₄) hs hf hsb hfb hn
    (h₂.shares hs hn' hne.symm)
  have hright := handle_local (e := e.amid w₃) (f := a.amid w₂) hs hf hsa hfa hn'
    (h₁.shares hs hn hne)
  rw [ha, hd] at hleft
  rw [hb, hc] at hright
  have hshares : ∀ i, d.workflows.Shares i c.workflows := by
    intro i
    by_cases hi : i = n.owner.instanceId
    · subst hi
      exact hleft.2.symm.trans (h₃.shares hsa hna hne.symm)
    by_cases hi' : i = n'.owner.instanceId
    · subst hi'
      exact (h₄.shares hsb hnb hne).symm.trans hright.2
    -- of any other instance all four have what there was
    have hab : b.workflows.Shares i a.workflows :=
      (h₂.shares hs hn' hi').symm.trans (h₁.shares hs hn hi)
    exact (h₄.shares hsb hnb hi).symm.trans (hab.trans (h₃.shares hsa hna hi'))
  have houtline : d.workflows.SameOutline c.workflows :=
    ((h₂.sameOutline hs).trans (h₄.sameOutline hsb)).symm.trans
      ((h₁.sameOutline hs).trans (h₃.sameOutline hsa))
  obtain ⟨hinstances, hnodes, hmembers, hfaults⟩ :=
    (h₄.sound hsb hfb).1.eq_of_shares (h₃.sound hsa hfa).1 houtline hshares
  simp only [inTurn, ha, hb, hc, hd, Prod.swap]
  refine ⟨Prod.ext hleft.1.symm hright.1, ?_⟩
  rw [contents, contents, hinstances, hnodes, hmembers, hfaults]

/-- **Instances are isolated.** A notification to a node changes nothing of any other instance:
neither its record, with the status and the context, nor any of its nodes.  Two notifications to
nodes of different instances, whatever they say, answer the same and leave the same store of
workflows in either order.  The task layer may be any other whenever one of them is handled, so none
of this depends on what the activations of unlocked nodes do. -/
theorem instances_are_isolated {containers notifications : Nat} {admits : Engine → Op → Prop}
    {e : Engine} (h : Reaches admits (ofCapacity containers notifications) e)
    {note : Notification} {n : WorkflowNode}
    (hn : e.workflows.nodes.get? note.nodeId = some n) :
    (∀ w e', e' = ((handle note).go (e.amid w)).2 → ∀ i, i ≠ n.owner.instanceId →
      e'.workflows.instances.get? i = e.workflows.instances.get? i ∧
      e'.workflows.nodesOf? i = e.workflows.nodesOf? i ∧
      ∀ id k, e.workflows.nodes.get? id = some k → k.owner.instanceId = i →
        e'.workflows.nodes.get? id = some k) ∧
    ∀ note' n', e.workflows.nodes.get? note'.nodeId = some n' →
      n'.owner.instanceId ≠ n.owner.instanceId → ∀ w₁ w₂ w₃ w₄,
        (e.inTurn (w₁, note) (w₂, note')).1 = (e.inTurn (w₃, note') (w₄, note)).1.swap ∧
        (e.inTurn (w₁, note) (w₂, note')).2 = (e.inTurn (w₃, note') (w₄, note)).2 := by
  have hsteady := (steady_ofCapacity containers notifications).reaches h
  have hs := hsteady.sound
  have hf := hsteady.unfaulted
  refine ⟨?_, fun note' n' hn' hne => inTurn_comm hs hf hn hn' hne⟩
  rintro w _ rfl i hi
  have hshares := (handle_handled (e := e.amid w) hs hf note).shares hs hn hi
  exact ⟨hshares.inst, hshares.nodesOf?_eq, fun id k hk ho => hshares.get? hs hk ho⟩

/-- An engine with two permits. -/
def paired : Engine :=
  after [.create .consignment permit {}, .create .preConsignment permit {}] (ofCapacity 1 1)

/-- The form of the first permit is granted. -/
def granting : Notification := ⟨⟨"$1-apply"⟩, some "COMPLETED", none, some "GRANTED", {}⟩

/-- The form of the second permit fails. -/
def rejecting : Notification := ⟨⟨"$2-apply"⟩, some "FAILED", none, none, {}⟩

/-- One form is granted and the other one fails, while the task layer is a new one and while it is
what the permits left. -/
theorem instances_are_isolated_paired :
    ∃ n n', paired.workflows.nodes.get? granting.nodeId = some n ∧
      paired.workflows.nodes.get? rejecting.nodeId = some n' ∧
      n'.owner.instanceId ≠ n.owner.instanceId ∧
      (paired.inTurn (default, granting) (paired.workshop, rejecting)).2 =
        (paired.inTurn (paired.workshop, rejecting) (default, granting)).2 := by
  have hfirst : (paired.workflows.nodes.get? granting.nodeId).map (·.owner.instanceId) =
      some (.nth 1) := by cbv
  have hsecond : (paired.workflows.nodes.get? rejecting.nodeId).map (·.owner.instanceId) =
      some (.nth 2) := by cbv
  obtain ⟨n, hn, ho⟩ := Option.map_eq_some_iff.mp hfirst
  obtain ⟨n', hn', ho'⟩ := Option.map_eq_some_iff.mp hsecond
  have hne : n'.owner.instanceId ≠ n.owner.instanceId := by
    rw [ho, ho']
    decide
  have hreach : Reaches (fun _ _ => True) (ofCapacity 1 1) paired :=
    .step (.step .refl _ trivial) _ trivial
  have hboth := (instances_are_isolated hreach hn).2 rejecting n' hn' hne
    default paired.workshop paired.workshop default
  exact ⟨n, n', hn, hn', hne, hboth.2⟩

end Engine

end Clearance
