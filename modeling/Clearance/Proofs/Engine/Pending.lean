import Clearance.Proofs.Engine.Agreement
import Clearance.Proofs.Task.History

/-!
# Clearance — Proofs — Engine — What may be queued

Whatever was dropped, what is left of the notifications of a task is that it is in progress, any
number of times, and then at most its end.

* `Workshop.Pending`: so what is queued for a node is such a trail, and where it ends the task is.
* `Workshop.Closed`: a task that has ended, with nothing queued.
* `Workshop.Pending.served`, `Workshop.Closed.served`: whatever is done to the tasks keeps both.
* `Engine.Took.pending_self`: a notification that is taken is the last one of its task, or the task
  is in progress.
-/

namespace Clearance

theorem NodeState.isTerminal_ofLifecycle (l : Lifecycle) :
    (ofLifecycle l).isTerminal = l.isTerminal := by
  cases l <;> rfl

theorem NodeState.not_terminal_of_canAdvanceTo {s t : NodeState} (h : s.canAdvanceTo t = true) :
    s.isTerminal = false := by
  revert h
  cases s <;> cases t <;> decide

/-- A node that is neither locked nor terminal may advance to wherever a task goes. -/
theorem NodeState.canAdvanceTo_of_open {s : NodeState} {l : Lifecycle} (hs : s ≠ .locked)
    (ht : s.isTerminal = false) (hl : l ≠ .initialized) :
    s.canAdvanceTo (.ofLifecycle l) = true := by
  revert hs ht hl
  cases s <;> cases l <;> decide

/-- Such a node takes every notification that says where its task went. -/
theorem WorkflowNode.take?_of_open {n : WorkflowNode} (hs : n.state ≠ .locked)
    (ht : n.state.isTerminal = false) {note : Notification} {l : Lifecycle}
    (hnote : note.lifecycle = some l.text) (hl : l ≠ .initialized) :
    n.take? note = some (n.advance (.ofLifecycle l) note) :=
  take?_eq_some.mpr
    ⟨_, Notification.asks_eq hnote n, NodeState.canAdvanceTo_of_open hs ht hl, rfl⟩

namespace Workshop

/-! ### What may be queued -/

/-- What is queued for a node is that its task is in progress, any number of times, and then perhaps
its end, which is where the task is. -/
def Pending (w : Workshop) (id : NodeId) : Prop :=
  ∃ k, ∃ ending : Option Lifecycle,
    (w.queuedFor id).map (·.lifecycle) =
      (Lifecycle.progress k ending).map (fun l => some l.text) ∧
    ∀ l ∈ ending, l.isTerminal = true ∧ (w.standing id).1 = .ofLifecycle l

/-- The task of the node has ended, and nothing is queued for the node. -/
structure Closed (w : Workshop) (id : NodeId) : Prop where
  silent : w.queuedFor id = []
  ended : (w.standing id).1.isTerminal = true

section Keeping

variable {w w' : Workshop} {id k : NodeId} {P : NodeId → Prop}

theorem pending_of_progress {j : Nat}
    (h : (w.queuedFor id).map (·.lifecycle) =
      (Lifecycle.progress j none).map (fun l => some l.text)) : w.Pending id := by
  refine ⟨j, none, h, fun l hl => ?_⟩
  cases hl

theorem pending_of_silent (h : w.queuedFor id = []) : w.Pending id := by
  refine pending_of_progress (j := 0) ?_
  rw [h]
  rfl

theorem Pending.of_eq (h : w.Pending id)
    (hr : w'.store.records.get? id = w.store.records.get? id)
    (hq : w'.queuedFor id = w.queuedFor id) : w'.Pending id := by
  rw [Pending, hq, standing_congr hr]
  exact h

theorem Closed.of_eq (h : w.Closed id) (hr : w'.store.records.get? id = w.store.records.get? id)
    (hq : w'.queuedFor id = w.queuedFor id) : w'.Closed id :=
  ⟨hq.trans h.silent, (congrArg (·.1.isTerminal) (standing_congr hr)).trans h.ended⟩

theorem MovesOn.queuedFor_dropped {note : Notification} {l : Lifecycle} {x : String}
    (h : MovesOn k w w' note l x) (ha : w.mailbox.accepts ≠ true) :
    w'.queuedFor id = w.queuedFor id := by
  rw [queuedFor, h.mailbox, Mailbox.send, if_neg ha]
  rfl

/-- A task that moves on has not ended, so whether the notification of it is queued or dropped, what
is queued is pending. -/
theorem Pending.movesOn {note : Notification} {l : Lifecycle} {x : String} (h : w.Pending k)
    (hm : MovesOn k w w' note l x) : w'.Pending k := by
  obtain ⟨j, ending, hq, hend⟩ := h
  have hopen := NodeState.not_terminal_of_canAdvanceTo hm.legal
  obtain rfl : ending = none := by
    cases ending with
    | none => rfl
    | some m =>
        obtain ⟨hterm, hst⟩ := hend m rfl
        rw [hst, NodeState.isTerminal_ofLifecycle, hterm] at hopen
        cases hopen
  by_cases ha : w.mailbox.accepts = true
  · have hq' : (w'.queuedFor k).map (·.lifecycle) =
        (Lifecycle.progress j none ++ [l]).map (fun l => some l.text) := by
      rw [hm.queuedFor_self ha, List.map_append, hq, List.map_append, List.map_singleton,
        hm.lifecycle]
      rfl
    rw [Lifecycle.progress, Option.toList_none, List.append_nil] at hq'
    cases l with
    | initialized => exact absurd rfl hm.started
    | inProgress =>
        rw [← List.replicate_succ'] at hq'
        refine pending_of_progress (j := j + 1) ?_
        rw [hq', Lifecycle.progress, Option.toList_none, List.append_nil]
    | completed =>
        refine ⟨j, some .completed, hq', ?_⟩
        rintro _ ⟨⟩
        exact ⟨rfl, congrArg Prod.fst hm.standing⟩
    | failed =>
        refine ⟨j, some .failed, hq', ?_⟩
        rintro _ ⟨⟩
        exact ⟨rfl, congrArg Prod.fst hm.standing⟩
  · refine pending_of_progress (j := j) ?_
    rw [hm.queuedFor_dropped ha, hq]

theorem Pending.serves (h : w.Pending id) (hs : Serves k w w') : w'.Pending id := by
  by_cases hid : id = k
  · subst hid
    rcases hs.outcome with hstill | ⟨note, l, x, hm⟩
    · rw [Pending, queuedFor, hstill.mailbox, hstill.standing]
      exact h
    · exact h.movesOn hm
  · exact h.of_eq (hs.elsewhere id hid) (hs.queuedFor_ne hid)

/-- A task that has ended does not move on. -/
theorem Closed.serves (h : w.Closed id) (hs : Serves k w w') : w'.Closed id := by
  by_cases hid : id = k
  · subst hid
    rcases hs.outcome with hstill | ⟨note, l, x, hm⟩
    · refine ⟨?_, ?_⟩
      · rw [queuedFor, hstill.mailbox]
        exact h.silent
      · rw [hstill.standing]
        exact h.ended
    · cases (NodeState.not_terminal_of_canAdvanceTo hm.legal).symm.trans h.ended
  · exact h.of_eq (hs.elsewhere id hid) (hs.queuedFor_ne hid)

theorem Pending.served (h : w.Pending id) (hs : Served P w w') : w'.Pending id := by
  induction hs with
  | refl => exact h
  | serve _ _ hs ih => exact ih.serves hs
  | count _ _ ih => exact ih.of_eq rfl rfl

theorem Closed.served (h : w.Closed id) (hs : Served P w w') : w'.Closed id := by
  induction hs with
  | refl => exact h
  | serve _ _ hs ih => exact ih.serves hs
  | count _ _ ih => exact ih.of_eq rfl rfl

end Keeping

end Workshop

namespace Engine

open WorkflowStore Workshop

section Taking

variable {e e₁ : Engine} {note : Notification}

/-- The notification that is taken of a node says that its task is in progress, or it is the last
one, and its task has ended so. -/
theorem Took.pending_self (ht : Took note e e₁) (h : e.workshop.Pending note.nodeId) :
    ∃ l : Lifecycle, note.lifecycle = some l.text ∧ l ≠ .initialized ∧
      (l.isTerminal = true → e₁.workshop.Closed note.nodeId) ∧
      e₁.workshop.Pending note.nodeId := by
  obtain ⟨k, ending, hq, hend⟩ := h
  have hst : e₁.workshop.standing note.nodeId = e.workshop.standing note.nodeId :=
    standing_congr (by rw [ht.records])
  rw [ht.queuedFor_self, List.map_cons] at hq
  cases k with
  | zero =>
      cases ending with
      | none => cases hq
      | some l =>
          obtain ⟨hl, hrest⟩ := List.cons.inj hq
          obtain ⟨hterm, hstand⟩ := hend l rfl
          have hsilent := List.map_eq_nil_iff.mp hrest
          refine ⟨l, hl, ?_, fun _ => ⟨hsilent, ?_⟩, pending_of_silent hsilent⟩
          · rintro rfl
            cases hterm
          · rw [hst, hstand, NodeState.isTerminal_ofLifecycle, hterm]
  | succ k =>
      obtain ⟨hl, hrest⟩ := List.cons.inj hq
      refine ⟨.inProgress, hl, by decide, fun hterm => ?_, k, ending, hrest, hst ▸ hend⟩
      cases hterm

theorem Took.pending (ht : Took note e e₁) (h : ∀ id, e.workshop.Pending id) (id : NodeId) :
    e₁.workshop.Pending id := by
  by_cases hid : id = note.nodeId
  · subst hid
    obtain ⟨-, -, -, -, hp⟩ := ht.pending_self (h _)
    exact hp
  · exact (h id).of_eq (by rw [ht.records]) (ht.queuedFor_ne hid)

/-- Nothing is taken of a node with nothing queued. -/
theorem Took.ne_of_silent (ht : Took note e e₁) {id : NodeId} (h : e.workshop.queuedFor id = []) :
    id ≠ note.nodeId := by
  rintro rfl
  cases ht.queuedFor_self.symm.trans h

theorem Took.untouched (ht : Took note e e₁) {id : NodeId} (h : e.workshop.Untouched id) :
    e₁.workshop.Untouched id :=
  h.of_eq (by rw [ht.records]) (ht.queuedFor_ne (ht.ne_of_silent h.silent))

theorem Took.closed (ht : Took note e e₁) {id : NodeId} (h : e.workshop.Closed id) :
    e₁.workshop.Closed id :=
  h.of_eq (by rw [ht.records]) (ht.queuedFor_ne (ht.ne_of_silent h.silent))

end Taking

end Engine

end Clearance
