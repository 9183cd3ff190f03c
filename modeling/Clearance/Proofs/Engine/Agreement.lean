import Clearance.Proofs.Engine.Effect

/-!
# Clearance — Proofs — Engine — Tasks and nodes agree

The task layer and the workflow layer keep what they know of a task in stores of their own, and only
notifications go from one to the other.  Yet, while none is lost, the node is what its queued
notifications make of it away from its task.

* `Workshop.Untouched`: a node without a record and without queued notifications.
* `Workshop.Tracked`: a node that its queued notifications bring to where its task is.
* `Engine.Agreeing.effect`: locked nodes stay untouched and the others tracked, whatever is done.
* `Engine.task_and_node_agree`: what that means for every engine that is reached.
-/

namespace Clearance

/-- The node once it took notifications one after the other, if it can. -/
def WorkflowNode.replay? (n : WorkflowNode) (notes : List Notification) : Option WorkflowNode :=
  notes.foldlM take? n

namespace Workshop

/-- The queued notifications of a node, the oldest first. -/
def queuedFor (w : Workshop) (id : NodeId) : List Notification :=
  w.mailbox.queue.filter fun note => note.nodeId = id

/-- Nothing was ever done for the node. -/
structure Untouched (w : Workshop) (id : NodeId) : Prop where
  absent : w.store.records.get? id = none
  silent : w.queuedFor id = []

/-- The queued notifications of the node bring it to where its task is. -/
def Tracked (w : Workshop) (id : NodeId) (n : WorkflowNode) : Prop :=
  ∃ n', n.replay? (w.queuedFor id) = some n' ∧ (n'.state, n'.extendedState) = w.standing id

/-- How many notifications were dropped. -/
def dropped (w : Workshop) : Nat := w.metrics.count .notificationDropped

section Tracking

variable {w w' : Workshop} {id k : NodeId} {n : WorkflowNode}

theorem standing_congr (h : w'.store.records.get? id = w.store.records.get? id) :
    w'.standing id = w.standing id := by
  rw [standing, standing, h]

theorem standing_fst (w : Workshop) (id : NodeId) :
    (w.standing id).1 =
      ((w.store.records.get? id).map fun r => NodeState.ofLifecycle r.state).getD .ready := by
  unfold standing
  cases w.store.records.get? id with
  | none => rfl
  | some r => exact r.standing_fst

/-- A node stands past the start exactly if its task is there. -/
theorem standing_fst_eq_iff {l : Lifecycle} (hl : l ≠ .initialized) :
    (w.standing id).1 = .ofLifecycle l ↔
      ∃ r, w.store.records.get? id = some r ∧ r.state = l := by
  rw [standing_fst]
  cases w.store.records.get? id with
  | none =>
      refine ⟨fun h => ?_, nofun⟩
      have hinit : NodeState.ofLifecycle l = .ofLifecycle .initialized := h.symm
      exact absurd (NodeState.ofLifecycle_injective hinit) hl
  | some r =>
      constructor
      · intro h
        exact ⟨r, rfl, NodeState.ofLifecycle_injective h⟩
      · rintro ⟨_, ⟨⟩, rfl⟩
        rfl

theorem standing_snd {r : TaskRecord} (hr : w.store.records.get? id = some r)
    (hs : r.state ≠ .initialized) : (w.standing id).2 = r.pluginState := by
  rw [standing_of_get? hr, TaskRecord.standing, if_neg hs]

/-- A node that just became ready is tracked if it was untouched. -/
theorem Untouched.tracked (h : w.Untouched id) (hs : n.state = .ready)
    (hx : n.extendedState = none) : w.Tracked id n := by
  refine ⟨n, ?_, ?_⟩
  · rw [h.silent]
    rfl
  · rw [hs, hx, standing_of_none h.absent]

theorem Tracked.of_eq (h : w.Tracked id n)
    (hr : w'.store.records.get? id = w.store.records.get? id)
    (hq : w'.queuedFor id = w.queuedFor id) : w'.Tracked id n := by
  obtain ⟨n', hn, hst⟩ := h
  exact ⟨n', by rw [hq, hn], by rw [standing_congr hr, hst]⟩

/-- With nothing queued, a tracked node is where its task is. -/
theorem Tracked.arrived (h : w.Tracked id n) (hq : w.mailbox.queue = []) :
    (n.state, n.extendedState) = w.standing id := by
  obtain ⟨n', hreplay, hst⟩ := h
  rw [queuedFor, hq] at hreplay
  obtain rfl := Option.some.inj hreplay
  exact hst

theorem Untouched.of_eq (h : w.Untouched id)
    (hr : w'.store.records.get? id = w.store.records.get? id)
    (hq : w'.queuedFor id = w.queuedFor id) : w'.Untouched id :=
  ⟨hr.trans h.absent, hq.trans h.silent⟩

/-- Whether a note is queued or dropped, another node has the same ones queued. -/
theorem MovesOn.queuedFor_ne {note : Notification} {l : Lifecycle} {x : String}
    (h : MovesOn k w w' note l x) (hid : id ≠ k) : w'.queuedFor id = w.queuedFor id := by
  unfold queuedFor
  rw [h.mailbox]
  unfold Mailbox.send
  split
  · have hno : ¬ note.nodeId = id := fun e => hid (e.symm.trans h.node)
    simp [hno]
  · rfl

theorem MovesOn.queuedFor_self {note : Notification} {l : Lifecycle} {x : String}
    (h : MovesOn k w w' note l x) (ha : w.mailbox.accepts = true) :
    w'.queuedFor k = w.queuedFor k ++ [note] := by
  unfold queuedFor
  rw [h.mailbox, Mailbox.send, if_pos ha]
  simp [h.node]

/-- What was not dropped was queued. -/
theorem MovesOn.accepts {note : Notification} {l : Lifecycle} {x : String}
    (h : MovesOn k w w' note l x) (hd : w'.dropped = 0) : w.mailbox.accepts = true := by
  by_contra hno
  have hdrop := h.dropped
  rw [if_neg hno] at hdrop
  exact absurd (hd.symm.trans hdrop) (Nat.succ_ne_zero _).symm

theorem Serves.queuedFor_ne (h : Serves k w w') (hid : id ≠ k) :
    w'.queuedFor id = w.queuedFor id := by
  rcases h.outcome with hstill | ⟨note, l, x, hmove⟩
  · rw [queuedFor, hstill.mailbox]
    rfl
  · exact hmove.queuedFor_ne hid

theorem Serves.dropped_le (h : Serves k w w') : w.dropped ≤ w'.dropped := by
  rcases h.outcome with hstill | ⟨note, l, x, hmove⟩
  · exact Nat.le_of_eq hstill.dropped.symm
  · rw [dropped, dropped, hmove.dropped]
    exact Nat.le_add_right _ _

/-- The node of a task that moves on takes the notification of that. -/
theorem MovesOn.take? {note : Notification} {l : Lifecycle} {x : String}
    (h : MovesOn k w w' note l x) (hn : (n.state, n.extendedState) = w.standing k) :
    ∃ m, n.take? note = some m ∧ (m.state, m.extendedState) = w'.standing k := by
  have hlegal : n.state.canAdvanceTo (.ofLifecycle l) = true := by
    rw [show n.state = (w.standing k).1 from congrArg Prod.fst hn]
    exact h.legal
  refine ⟨_, WorkflowNode.take?_eq_some.mpr
    ⟨_, Notification.asks_eq h.lifecycle n, hlegal, rfl⟩, ?_⟩
  rw [h.standing, WorkflowNode.advance, h.extendedState]
  rfl

/-- While nothing is dropped, operations on any task keep a node tracked. -/
theorem Tracked.serves (h : w.Tracked id n) (hs : Serves k w w') (hd : w'.dropped = 0) :
    w'.Tracked id n := by
  by_cases hid : id = k
  · subst hid
    obtain ⟨n', hn, hst⟩ := h
    rcases hs.outcome with hstill | ⟨note, l, x, hmove⟩
    · refine ⟨n', ?_, hst.trans hstill.standing.symm⟩
      rw [queuedFor, hstill.mailbox]
      exact hn
    · obtain ⟨m, hm, hstm⟩ := hmove.take? hst
      refine ⟨m, ?_, hstm⟩
      rw [hmove.queuedFor_self (hmove.accepts hd), WorkflowNode.replay?, List.foldlM_append]
      rw [WorkflowNode.replay?] at hn
      rw [hn]
      simpa using hm
  · exact h.of_eq (hs.elsewhere id hid) (hs.queuedFor_ne hid)

theorem Served.dropped_le {P : NodeId → Prop} (h : Served P w w') : w.dropped ≤ w'.dropped := by
  induction h with
  | refl => exact Nat.le_refl _
  | serve _ _ hs ih => exact Nat.le_trans ih hs.dropped_le
  | count _ hk ih => exact Nat.le_trans ih (Nat.le_of_eq (Metrics.count_record_ne _ hk.symm).symm)

/-- What every operation keeps that drops nothing, a row of them keeps that drops nothing. -/
theorem Served.undropped {P : NodeId → Prop} {I : Workshop → Prop} (hs : Served P w w')
    (hd : w'.dropped = 0) (h : I w)
    (hserve : ∀ {k w₁ w₂}, Serves k w₁ w₂ → w₂.dropped = 0 → I w₁ → I w₂)
    (hcount : ∀ {w₁} (m : Metrics), I w₁ → I { w₁ with metrics := m }) : I w' := by
  induction hs with
  | refl => exact h
  | serve _ _ hs ih => exact hserve hs hd (ih (Nat.le_zero.mp (hd ▸ hs.dropped_le)))
  | count _ hk ih => exact hcount _ (ih ((Metrics.count_record_ne _ hk.symm).symm.trans hd))

theorem Tracked.served {P : NodeId → Prop} (h : w.Tracked id n) (hs : Served P w w')
    (hd : w'.dropped = 0) : w'.Tracked id n :=
  hs.undropped (I := fun w => w.Tracked id n) hd h (fun hs hd ht => ht.serves hs hd)
    fun _ ht => ht.of_eq rfl rfl

/-- Operations on other tasks leave a node untouched. -/
theorem Untouched.served {P : NodeId → Prop} (h : w.Untouched id) (hs : Served P w w')
    (hP : ¬ P id) : w'.Untouched id := by
  induction hs with
  | refl => exact h
  | serve _ hk hs ih =>
      have hid : id ≠ _ := fun e => hP (e ▸ hk)
      exact ih.of_eq (hs.elsewhere id hid) (hs.queuedFor_ne hid)
  | count _ _ ih => exact ih.of_eq rfl rfl

/-- An operation on a task that does nothing unless the task is there. -/
theorem Untouched.serves (h : w.Untouched id) (hs : Serves k w w')
    (habsent : w.store.records.get? k = none → Unmoved w w') : w'.Untouched id := by
  by_cases hid : id = k
  · subst hid
    obtain ⟨hr, hm⟩ := habsent h.absent
    exact h.of_eq (by rw [hr]) (by rw [queuedFor, queuedFor, hm])
  · exact h.of_eq (hs.elsewhere id hid) (hs.queuedFor_ne hid)

end Tracking

end Workshop

namespace Engine

open WorkflowStore Workshop

/-- What is done from outside without getting ahead of the workflow layer: a locked node is not
activated, no notification comes but those that were queued, none of these is thrown away, and no
task was made under the id of an instance before the instance was, as nobody knows the id until
then. -/
def Op.Orderly (e : Engine) : Op → Prop
  | .create _ _ _ =>
    ∀ t, e.workshop.store.records.get? ((InstanceId.nth (e.instancesMade + 1)).node t) = none
  | .init _ a => ∀ n, e.workflows.nodes.get? a.nodeId = some n → n.state ≠ .locked
  | .notify _ | .discard => False
  | _ => True

theorem Op.Orderly.took {op : Op} {e e' : Engine} {note : Notification} (h : op.Orderly e)
    (hb : op.Brings note e e') : Took note e e' := by
  cases op with
  | deliver => exact hb
  | notify => exact h.elim
  | _ => exact hb.elim

/-- The locked nodes are untouched, and the others tracked. -/
structure Agrees (w : Workshop) (look : Lookup) : Prop where
  locked : ∀ id n, look id = some n → n.state = .locked → w.Untouched id
  tracked : ∀ id n, look id = some n → n.state ≠ .locked → w.Tracked id n

section Agreement

variable {w w' : Workshop} {look : Lookup} {e e₁ : Engine} {note : Notification}

/-- Operations on tasks of nodes that are not locked. -/
theorem Agrees.served {P : NodeId → Prop} (h : Agrees w look) (hs : Served P w w')
    (hd : w'.dropped = 0) (hP : ∀ id n, look id = some n → n.state = .locked → ¬ P id) :
    Agrees w' look where
  locked id n hn hl := (h.locked id n hn hl).served hs (hP id n hn hl)
  tracked id n hn hl := (h.tracked id n hn hl).served hs hd

/-- An operation on one task that does nothing unless the task is there. -/
theorem Agrees.served_present {id : NodeId} (h : Agrees w look) (hs : Serves id w w')
    (habsent : w.store.records.get? id = none → Unmoved w w') (hd : w'.dropped = 0) :
    Agrees w' look where
  locked k n hn hl := (h.locked k n hn hl).serves hs habsent
  tracked k n hn hl := (h.tracked k n hn hl).serves hs hd

theorem Agrees.around (h : Agrees w look) (k : Around w w')
    (hq : w'.mailbox.queue = w.mailbox.queue) : Agrees w' look := by
  have hqueue : ∀ id, w'.queuedFor id = w.queuedFor id := fun id => by
    rw [queuedFor, queuedFor, hq]
  exact ⟨fun id n hn hl => (h.locked id n hn hl).of_eq (by rw [k.records]) (hqueue id),
    fun id n hn hl => (h.tracked id n hn hl).of_eq (by rw [k.records]) (hqueue id)⟩

theorem Took.queuedFor_self (h : Took note e e₁) :
    e.workshop.queuedFor note.nodeId = note :: e₁.workshop.queuedFor note.nodeId := by
  rw [queuedFor, h.queue]
  simp [queuedFor]

theorem Took.queuedFor_ne (h : Took note e e₁) {id : NodeId} (hid : id ≠ note.nodeId) :
    e₁.workshop.queuedFor id = e.workshop.queuedFor id := by
  rw [queuedFor, queuedFor, h.queue]
  simp [Ne.symm hid]

theorem Took.records (h : Took note e e₁) :
    e₁.workshop.store.records = e.workshop.store.records := by
  rw [h.rest]

/-- A tracked node takes the notification that is taken of it, which is the oldest of its own. -/
theorem Took.tracked (ht : Took note e e₁) {n : WorkflowNode}
    (h : e.workshop.Tracked note.nodeId n) :
    ∃ m, n.take? note = some m ∧ e₁.workshop.Tracked note.nodeId m := by
  obtain ⟨n', hreplay, hst⟩ := h
  rw [ht.queuedFor_self, WorkflowNode.replay?, List.foldlM_cons] at hreplay
  obtain ⟨m, hm, hrest⟩ := Option.bind_eq_some_iff.mp hreplay
  exact ⟨m, hm, n', hrest, hst.trans (standing_congr (by rw [ht.records])).symm⟩

/-- A notification that is queued for a node is one that the node takes next. -/
theorem Agrees.takes (h : Agrees e.workshop look) (ht : Took note e e₁) {n : WorkflowNode}
    (hn : look note.nodeId = some n) :
    n.state ≠ .locked ∧ ∃ m, n.take? note = some m ∧ e₁.workshop.Tracked note.nodeId m := by
  have hl : n.state ≠ .locked := by
    intro hl
    exact nomatch ht.queuedFor_self.symm.trans (h.locked _ n hn hl).silent
  exact ⟨hl, ht.tracked (h.tracked _ n hn hl)⟩

/-- A node takes the notification queued for it, and unlocks others. -/
theorem Agrees.advance (h : Agrees e.workshop e.workflows.nodes.get?) (hs : e.Steady)
    (ht : Took note e e₁) {n m : WorkflowNode} (hk : e.Takes note n m) :
    Agrees e₁.workshop (Lookup.advance e.workflows.nodes.get? m) := by
  obtain ⟨hl, m', hm', htracked⟩ := h.takes ht (hk.node ▸ hk.found)
  obtain rfl := Option.some.inj (hk.taken.symm.trans hm')
  have hne : ∀ {id}, id ≠ m.id → e₁.workshop.queuedFor id = e.workshop.queuedFor id :=
    fun hid => ht.queuedFor_ne (hk.node ▸ hid)
  refine ⟨fun id k hlook hstate => ?_, fun id k hlook hstate => ?_⟩
  · rcases Lookup.of_advance hlook with ⟨-, rfl⟩ | ⟨k', hid, hk', ⟨rfl, -⟩ | ⟨rfl, -⟩⟩
    · exact absurd hstate ((WorkflowNode.onward_of_take? hk.taken).not_locked hl)
    · exact (h.locked id k hk' hstate).of_eq (by rw [ht.records]) (hne hid)
    · cases hstate
  · rcases Lookup.of_advance hlook with ⟨rfl, rfl⟩ | ⟨k', hid, hk', ⟨rfl, -⟩ | ⟨rfl, -, ho⟩⟩
    · exact hk.node ▸ htracked
    · exact (h.tracked id k hk' hstate).of_eq (by rw [ht.records]) (hne hid)
    · -- a node that was locked has nothing queued, so being ready is where its task is
      have hl' := (WorkflowNode.opensOn_iff.mp ho).1
      have hu : e₁.workshop.Untouched id :=
        (h.locked id k' hk' hl').of_eq (by rw [ht.records]) (hne hid)
      exact hu.tracked rfl ((hs.sound.fit id k' hk').locked hl')

/-- A notification that no node takes was queued for none. -/
theorem Agrees.refuse (h : Agrees e.workshop look) (ht : Took note e e₁)
    (hno : ∀ n, look note.nodeId = some n → n.take? note = none) : Agrees e₁.workshop look := by
  have hne : ∀ id n, look id = some n → e₁.workshop.queuedFor id = e.workshop.queuedFor id := by
    refine fun id n hn => ht.queuedFor_ne ?_
    rintro rfl
    obtain ⟨-, m, hm, -⟩ := h.takes ht hn
    exact nomatch (hno n hn).symm.trans hm
  exact ⟨fun id n hn hl => (h.locked id n hn hl).of_eq (by rw [ht.records]) (hne id n hn),
    fun id n hn hl => (h.tracked id n hn hl).of_eq (by rw [ht.records]) (hne id n hn)⟩

/-- What was queued is of a node with a record. -/
theorem untouched_of_absent (hw : w.Coherent) {id : NodeId}
    (hno : w.store.records.get? id = none) : w.Untouched id := by
  refine ⟨hno, List.filter_eq_nil_iff.mpr fun note hnote hid => ?_⟩
  obtain ⟨r, hr⟩ := hw.known note hnote
  rw [of_decide_eq_true hid, hno] at hr
  cases hr

/-- New nodes are untouched until they are activated. -/
theorem Agrees.found (h : Agrees e.workshop e.workflows.nodes.get?) (hs : e.Steady) {c : Created}
    {e' : Engine} (hc : Founded c e e')
    (hfresh : ∀ t,
      e.workshop.store.records.get? ((InstanceId.nth (e.instancesMade + 1)).node t) = none) :
    Agrees e.workshop e'.workflows.nodes.get? := by
  have hnew : ∀ n ∈ c.nodes, e.workshop.Untouched n.id := by
    intro n hn
    obtain ⟨t, ht⟩ := hc.well.named n hn
    refine untouched_of_absent hs.coherent ?_
    rw [ht, hc.id]
    exact hfresh t
  refine ⟨fun id n hn hl => ?_, fun id n hn hl => ?_⟩
  · rcases hc.get?_eq_some.mp hn with ⟨hmem, rfl⟩ | hold
    · exact hnew n hmem
    · exact h.locked id n hold hl
  · rcases hc.get?_eq_some.mp hn with ⟨hmem, rfl⟩ | hold
    · exact (hnew n hmem).tracked (hc.well.ready hmem hl) (hc.well.extendedState n hmem)
    · exact h.tracked id n hold hl

end Agreement

/-- The agreement, as long as nothing was dropped. -/
structure Agreeing (e : Engine) : Prop where
  steady : e.Steady
  agrees : e.workshop.dropped = 0 → Agrees e.workshop e.workflows.nodes.get?

theorem agreeing_ofCapacity (containers notifications : Nat) :
    (ofCapacity containers notifications).Agreeing where
  steady := steady_ofCapacity containers notifications
  agrees _ := {
    locked := fun _ _ h => nomatch h
    tracked := fun _ _ h => nomatch h }

/-- No operation takes back a drop. -/
theorem Effect.dropped_le {e e' : Engine} {op : Op} (he : Effect e op e') :
    e.workshop.dropped ≤ e'.workshop.dropped := by
  have haround : ∀ {w w' : Workshop}, Around w w' → w.dropped = w'.dropped := fun h => by
    rw [dropped, dropped, h.metrics]
  cases he with
  | created k => exact k.workshop.dropped_le
  | uncreated _ hw => exact hw.dropped_le
  | activated k => exact k.dropped_le
  | served k _ => exact k.dropped_le
  | advanced hb _ k => exact Nat.le_trans (haround hb.rest.2.1).le k.workshop.dropped_le
  | refused hb _ _ hw => exact Nat.le_trans (haround hb.rest.2.1).le hw.dropped_le
  | idle => exact Nat.le_refl _
  | outside k _ => exact (haround k).le
  | discarded k _ => exact (haround k).le

/-- **The agreement is kept** by every orderly operation. -/
theorem Agreeing.effect {e e' : Engine} {op : Op} (h : e.Agreeing) (hop : op.Orderly e)
    (he : Effect e op e') : e'.Agreeing := by
  refine ⟨h.steady.effect he, fun hd => ?_⟩
  have ha := h.agrees (Nat.le_zero.mp (hd ▸ he.dropped_le))
  cases he with
  | @created _ _ _ c _ k =>
      refine (ha.found h.steady k hop).served k.workshop hd fun id n hn hl => ?_
      -- the nodes that creation activates are not locked
      rintro ⟨m, hm, rfl, hml⟩
      have hnm := k.get?_eq_some.mpr (.inl ⟨hm, Eq.refl m.id⟩)
      obtain rfl := Option.some.inj (hnm.symm.trans hn)
      exact hml hl
  | uncreated hs hw =>
      rw [hs.get?_eq]
      exact ha.served hw hd fun id n hn _ hno => nomatch hno.symm.trans hn
  | @activated _ a w k =>
      refine ha.served (P := fun id => id = a.nodeId) (.serve .refl rfl k) hd ?_
      rintro _ n hn hl rfl
      exact hop n hn hl
  | served k habsent => exact ha.served_present k habsent hd
  | @advanced _ note e₁ _ n m hb ht k =>
      have hlook := k.workflows.get?_eq
      rw [hb.rest.1] at hlook
      rw [hlook]
      refine (ha.advance h.steady (hop.took hb) ht).served k.workshop hd ?_
      rintro id x hx hl ⟨y, hy, hyl⟩
      rw [hlook] at hy
      obtain rfl := Option.some.inj (hx.symm.trans hy)
      exact hyl hl
  | refused hb hn hs hw =>
      rw [hs.get?_eq]
      exact (ha.refuse (hop.took hb) hn).served hw hd fun _ _ _ _ h => h
  | idle => exact ha
  | outside k hq => exact ha.around k hq
  | discarded => exact hop.elim

/-- **Tasks and nodes agree.** In every engine that comes of orderly operations and has dropped no
notification, a locked node has no task and no queued notification.  Any other node takes its queued
notifications in turn, and comes to the state that its task has, or to ready without a task.  Once
the mailbox is empty, a node is past the start exactly as its task is, and shows the state of its
plugin. -/
theorem task_and_node_agree {containers notifications : Nat} {e : Engine}
    (h : Reaches (fun e op => op.Orderly e) (ofCapacity containers notifications) e)
    (hd : e.workshop.metrics.count .notificationDropped = 0) {id : NodeId} {n : WorkflowNode}
    (hn : e.workflows.nodes.get? id = some n) :
    (n.state = .locked →
      e.workshop.store.records.get? id = none ∧
        ∀ note ∈ e.workshop.mailbox.queue, note.nodeId ≠ id) ∧
    (n.state ≠ .locked →
      ∃ n', n.replay? (e.workshop.queuedFor id) = some n' ∧
        n'.state = ((e.workshop.store.records.get? id).map fun r =>
          NodeState.ofLifecycle r.state).getD .ready) ∧
    (e.workshop.mailbox.queue = [] →
      ∀ l, l ≠ .initialized →
        (n.state = .ofLifecycle l ↔
          ∃ r, e.workshop.store.records.get? id = some r ∧ r.state = l) ∧
        ∀ r, e.workshop.store.records.get? id = some r → r.state = l →
          n.extendedState = r.pluginState) := by
  have hinv : e.Agreeing := h.invariant (agreeing_ofCapacity containers notifications)
    fun e₁ op hop h₁ => h₁.effect hop (effect_perform h₁.steady op)
  have ha := hinv.agrees hd
  refine ⟨fun hl => ?_, fun hl => ?_, fun hq l hstart => ?_⟩
  · obtain ⟨habsent, hsilent⟩ := ha.locked id n hn hl
    refine ⟨habsent, fun note hnote hid => ?_⟩
    exact List.filter_eq_nil_iff.mp hsilent note hnote (decide_eq_true hid)
  · obtain ⟨n', hreplay, hst⟩ := ha.tracked id n hn hl
    exact ⟨n', hreplay, (congrArg Prod.fst hst).trans (standing_fst _ id)⟩
  · by_cases hl : n.state = .locked
    · -- no task is in the state that a locked node has
      have hno := (ha.locked id n hn hl).absent
      rw [hl, hno]
      refine ⟨⟨fun hs => ?_, nofun⟩, nofun⟩
      cases l <;> cases hs
    · have hst := (ha.tracked id n hn hl).arrived hq
      refine ⟨?_, fun r hr hrl => ?_⟩
      · rw [show n.state = (e.workshop.standing id).1 from congrArg Prod.fst hst]
        exact standing_fst_eq_iff hstart
      · exact (congrArg Prod.snd hst).trans (standing_snd hr (hrl ▸ hstart))

/-- The form of a permit is in progress, as its task is. -/
theorem task_and_node_agree_opened :
    ∃ n, opened.workflows.nodes.get? ⟨"$1-apply"⟩ = some n ∧
      (n.state = .inProgress ↔
        ∃ r, opened.workshop.store.records.get? ⟨"$1-apply"⟩ = some r ∧ r.state = .inProgress) := by
  have hn : (opened.workflows.nodes.get? ⟨"$1-apply"⟩).isSome = true := by cbv
  have hd : opened.workshop.metrics.count .notificationDropped = 0 := by cbv
  have hq : opened.workshop.mailbox.queue = [] := by cbv
  obtain ⟨n, hn⟩ := Option.isSome_iff_exists.mp hn
  obtain ⟨-, -, hagree⟩ :=
    task_and_node_agree (.step (.step .refl _ fun _ => rfl) .deliver trivial) hd hn
  exact ⟨n, hn, (hagree hq .inProgress (by decide)).1⟩

end Engine

end Clearance
