import Clearance.Proofs.Engine.Effect

/-!
# Clearance — Proofs — Engine — Locked nodes are those that are not satisfied

As long as only notifications are handled that the task layer has queued, a node is locked exactly
while its dependencies are not satisfied.

* `Notification.Announced`: the task layer reports only tasks that have started, so no notification
  of its asks a locked node to become ready.
* `WorkflowNode.starts_of_take?`: a locked node takes only a notification that does.
* `Engine.Effect.announced`: only announced notifications are queued, whatever is done.
* `Engine.Gating.effect`: every operation that brings a queued one, or none, keeps the gate.
* `Engine.locked_iff_not_satisfied`: it holds of every instance of an engine that is reached.
-/

namespace Clearance

/-! ### Announced notifications -/

/-- A notification as the task layer sends it: a task came to a lifecycle past the start, and to a
state of its plugin. -/
def Notification.Announced (note : Notification) : Prop :=
  ∃ l x, note.lifecycle = some (Lifecycle.text l) ∧ note.extendedState = some x ∧ l ≠ .initialized

/-- A locked node takes a notification only if it says that the task is at its start, and it becomes
ready by it. -/
theorem WorkflowNode.starts_of_take? {n m : WorkflowNode} {note : Notification}
    (hm : n.take? note = some m) (hl : n.state = .locked) :
    note.lifecycle = some Lifecycle.initialized.text ∧ m.state = .ready := by
  obtain ⟨next, hask, hlegal, rfl⟩ := take?_eq_some.mp hm
  rw [hl] at hlegal
  obtain rfl : next = .ready := by
    cases next with
    | ready => rfl
    | _ => cases hlegal
  refine ⟨?_, rfl⟩
  unfold Notification.asks at hask
  split at hask
  · cases hl.symm.trans (Except.ok.inj hask)
  · rename_i text htext
    rcases project_cases text with ⟨l, rfl, hp⟩ | ⟨-, hp⟩
    · rw [htext]
      cases l with
      | initialized => rfl
      | _ => cases hp.symm.trans hask
    · cases hp.symm.trans hask

/-- A locked node takes no notification of the task layer. -/
theorem Notification.Announced.not_locked {note : Notification} (h : note.Announced)
    {n m : WorkflowNode} (hm : n.take? note = some m) : n.state ≠ .locked := by
  intro hl
  obtain ⟨l, -, htext, -, hstart⟩ := h
  have hinit := htext.symm.trans (WorkflowNode.starts_of_take? hm hl).1
  cases l with
  | initialized => exact hstart rfl
  | _ => exact absurd (Option.some.inj hinit) (by decide)

namespace Workshop

theorem MovesOn.announced {id : NodeId} {w w' : Workshop} {note : Notification} {l : Lifecycle}
    {x : String} (h : MovesOn id w w' note l x) : note.Announced :=
  ⟨l, x, h.lifecycle, h.extendedState, h.started⟩

/-- An operation on a task queues only an announced notification. -/
theorem Serves.announced {id : NodeId} {w w' : Workshop} (h : Serves id w w')
    (hq : ∀ note ∈ w.mailbox.queue, note.Announced) :
    ∀ note ∈ w'.mailbox.queue, note.Announced := by
  rcases h.outcome with hstill | ⟨note, l, x, hmove⟩
  · rw [hstill.mailbox]
    exact hq
  · rw [hmove.mailbox]
    intro k hk
    rcases Mailbox.mem_queue_send hk with hk | rfl
    · exact hq k hk
    · exact hmove.announced

theorem Served.announced {P : NodeId → Prop} {w w' : Workshop} (h : Served P w w')
    (hq : ∀ note ∈ w.mailbox.queue, note.Announced) :
    ∀ note ∈ w'.mailbox.queue, note.Announced := by
  induction h with
  | refl => exact hq
  | serve _ _ hs ih => exact hs.announced ih
  | count _ _ ih => exact ih

end Workshop

/-! ### New nodes -/

/-- A node whose prerequisites meet none of its dependencies is satisfied only if it has none. -/
theorem WorkflowNode.satisfied_of_not_met {look : Lookup} {n : WorkflowNode}
    (h : ∀ d ∈ n.dependencies, d.isMet look = false) :
    n.satisfied look = n.dependencies.isEmpty := by
  unfold satisfied
  cases hdeps : n.dependencies with
  | nil => rfl
  | cons d rest =>
      rw [hdeps] at h
      have hany : (d :: rest).any (·.isMet look) = false := by
        rw [List.any_eq_false]
        exact fun d hd => by simp [h d hd]
      have hall : (d :: rest).all (·.isMet look) = false := by
        rw [List.all_cons, h d List.mem_cons_self, Bool.false_and]
      rw [hany, hall]
      cases n.unlockMode <;> rfl

/-- The gate holds of a store with an instance committed to it. -/
theorem Gated.commit {s : WorkflowStore} (hs : s.Sound) (h : Gated s.nodes.get?) {c : Created}
    (hwell : c.Well) (hc : s.conflict? c.inst c.nodes = none) :
    Gated (s.commit c.inst c.nodes).nodes.get? := by
  intro id n hn
  rcases (WorkflowStore.get?_commit_eq_some hc hwell.distinct).mp hn with ⟨hmem, -⟩ | hold
  · -- a new node depends on new nodes, none of which is completed
    have hnot : ∀ d ∈ n.dependencies, d.isMet (s.commit c.inst c.nodes).nodes.get? = false := by
      intro d hd
      obtain ⟨m, hm, hid⟩ := hwell.inside n hmem d hd
      rw [ResolvedDependency.isMet,
        (WorkflowStore.get?_commit_eq_some hc hwell.distinct).mpr (.inl ⟨hm, hid⟩)]
      have hstate : m.state ≠ .completed := by
        rw [hwell.state m hm]
        split <;> decide
      simp [ResolvedDependency.isMetBy, hstate]
    rw [WorkflowNode.satisfied_of_not_met hnot, hwell.state n hmem]
    cases n.dependencies <;> simp
  · -- the nodes from before depend on each other only
    rw [h id n hold]
    refine Eq.congr_left (WorkflowNode.satisfied_congr fun d hd => ?_)
    obtain ⟨m, hm, -⟩ := hs.inside id n hold d hd
    rw [ResolvedDependency.isMet, ResolvedDependency.isMet, hm,
      (WorkflowStore.get?_commit_eq_some hc hwell.distinct).mpr (.inr hm)]

namespace Engine

open WorkflowStore

/-! ### Runs without notifications from outside -/

/-- An operation that brings no notification but those that are queued. -/
def Op.QueuedOnly : Op → Prop
  | .notify _ => False
  | _ => True

/-- What such an operation brings was taken out of the mailbox. -/
theorem Op.QueuedOnly.took {op : Op} {e e' : Engine} {note : Notification} (h : op.QueuedOnly)
    (hb : op.Brings note e e') : Took note e e' := by
  cases op with
  | deliver => exact hb
  | notify _ => exact h.elim
  | _ => exact hb.elim

/-- What the gate rests on. -/
structure Gating (e : Engine) : Prop where
  steady : e.Steady
  announced : ∀ note ∈ e.workshop.mailbox.queue, note.Announced
  gated : Gated e.workflows.nodes.get?

theorem gating_ofCapacity (containers notifications : Nat) :
    (ofCapacity containers notifications).Gating where
  steady := steady_ofCapacity containers notifications
  announced _ h := nomatch h
  gated _ _ h := nomatch h

/-- A notification that comes with an operation was queued. -/
theorem Op.QueuedOnly.mem_queue {op : Op} (h : op.QueuedOnly) {note : Notification} {e e' : Engine}
    (hop : op.Brings note e e') : note ∈ e.workshop.mailbox.queue := by
  rw [(h.took hop).queue]
  exact List.mem_cons_self

/-- Whatever is done, only announced notifications are queued. -/
theorem Effect.announced {e e' : Engine} {op : Op} (he : Effect e op e')
    (h : ∀ note ∈ e.workshop.mailbox.queue, note.Announced) :
    ∀ note ∈ e'.workshop.mailbox.queue, note.Announced := by
  cases he with
  | created k => exact k.workshop.announced h
  | uncreated _ hw => exact hw.announced h
  | activated k => exact k.announced h
  | served k _ => exact k.announced h
  | advanced hb _ k => exact k.workshop.announced fun x hx => h x (hb.rest.2.2 x hx)
  | refused hb _ _ hw => exact hw.announced fun x hx => h x (hb.rest.2.2 x hx)
  | idle => exact h
  | outside _ hq => exact fun x hx => h x (hq ▸ hx)
  | discarded _ hq => exact fun x hx => by simp [hq] at hx

/-- **The gate is kept** by every operation that brings no other notification. -/
theorem Gating.effect {e e' : Engine} {op : Op} (h : e.Gating) (hop : op.QueuedOnly)
    (he : Effect e op e') : e'.Gating := by
  refine ⟨h.steady.effect he, he.announced h.announced, ?_⟩
  cases he with
  | created k =>
      rw [k.workflows]
      exact h.gated.commit h.steady.sound k.well k.conflict
  | uncreated hs _ => exact hs.get?_eq ▸ h.gated
  | activated _ => exact h.gated
  | served _ _ => exact h.gated
  | advanced hb ht k =>
      have hl := (h.announced _ (hop.mem_queue hb)).not_locked ht.taken
      have hkin := (WorkflowNode.onward_of_take? ht.taken).kin
      obtain ⟨next, -, hlegal, rfl⟩ := WorkflowNode.take?_eq_some.mp ht.taken
      rw [k.workflows.get?_eq, hb.rest.1]
      exact h.gated.advance ht.found hkin hlegal hl
  | refused _ _ hs _ => exact hs.get?_eq ▸ h.gated
  | idle => exact h.gated
  | outside _ _ => exact h.gated
  | discarded _ _ => exact h.gated

/-- **No node is unlocked early and none is missed.** In every engine that comes of operations on
tasks and instances and of the processing of what was queued, a committed instance has its nodes,
and each of them is locked exactly while its dependencies are not satisfied by the nodes of the
instance. -/
theorem locked_iff_not_satisfied {containers notifications : Nat} {e : Engine}
    (h : Reaches (fun _ op => op.QueuedOnly) (ofCapacity containers notifications) e)
    {i : InstanceId} {x : WorkflowInstance} (hx : e.workflows.instances.get? i = some x) :
    ∃ nodes, e.workflows.nodesOf? i = some nodes ∧
      (∀ id n, e.workflows.nodes.get? id = some n → n.owner.instanceId = i → n ∈ nodes) ∧
      ∀ n ∈ nodes, n.state = .locked ↔ n.satisfied (nodeIn nodes) = false := by
  have hg : e.Gating := h.invariant (gating_ofCapacity containers notifications)
    fun e₁ op hop h₁ => h₁.effect hop (effect_perform h₁.steady op)
  have hs := hg.steady.sound
  obtain ⟨ids, hids⟩ := hs.peopled i x hx
  obtain ⟨nodes, hnodes⟩ := exists_nodesOf? hids
  refine ⟨_, hnodes, fun id n hn ho => ?_, fun n hn => ?_⟩
  · obtain rfl := hs.keyed id n hn
    exact (hs.mem_nodesOf? hnodes).mpr ⟨hn, ho⟩
  · rw [hs.satisfied_nodesOf? hnodes hn]
    exact hg.gated n.id n ((hs.mem_nodesOf? hnodes).mp hn).1

/-- While the form of a permit is open, the wait for its payment is locked. -/
theorem locked_iff_not_satisfied_opened :
    ∃ nodes, opened.workflows.nodesOf? (.nth 1) = some nodes ∧
      ∀ n ∈ nodes, n.state = .locked ↔ n.satisfied (nodeIn nodes) = false := by
  have hx : (opened.workflows.instances.get? (.nth 1)).isSome = true := by cbv
  obtain ⟨x, hx⟩ := Option.isSome_iff_exists.mp hx
  obtain ⟨nodes, hnodes, -, hgate⟩ :=
    locked_iff_not_satisfied (.step (.step .refl _ trivial) .deliver trivial) hx
  exact ⟨nodes, hnodes, hgate⟩

end Engine

end Clearance
