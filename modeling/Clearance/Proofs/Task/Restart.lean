import Clearance.Proofs.Task.History

/-!
# Clearance — Proofs — Task — Starting a started task

A task that has left the start has nothing to do when its node is activated again.  The activation
finds its container or builds it again from the record, and what it asks for is not looked at.

* `Bench.startBy_started`: the plugin of a started task answers at once.
* `Workshop.init_started`: the activation of a started task keeps the workshop, and only empty ids
  and a store that fails keep it from being answered.
* `Workshop.Started`: the task of a node has left the start.  No operation takes it back there.
-/

namespace Clearance

/-! ### Plugins -/

section Start

variable {b : Bench}

theorem FormConfig.start_started (h : b.handle.state ≠ .initialized) :
    start.go b = (.ok (.unchanged .done), b) := by
  rw [start, Bench.handleNow, Act.go_bind, Act.go_of]
  dsimp only
  rw [if_neg h]
  rfl

theorem EventConfig.start_started (h : b.handle.state ≠ .initialized) (c : EventConfig)
    (ctx : CallContext) : (c.start ctx).go b = (.ok (.unchanged .done), b) := by
  rw [start, Bench.handleNow, Act.go_bind, Act.go_of]
  dsimp only
  rw [if_pos h]
  rfl

theorem Plugin.start_started (h : b.handle.state ≠ .initialized) (p : Plugin)
    (ctx : CallContext) : (p.start ctx).go b = (.ok (.unchanged .done), b) := by
  cases p with
  | form c => exact FormConfig.start_started h
  | event c => exact EventConfig.start_started h c ctx

/-- A started task is left alone, whether it is finished or not. -/
theorem Bench.startBy_started (h : b.handle.state ≠ .initialized) (p : Plugin)
    (ctx : CallContext) : (startBy (p.start ctx)).go b = (.ok (.unchanged .done), b) := by
  rw [startBy, handleNow, Act.go_bind, Act.go_of]
  dsimp only
  split
  · rfl
  · exact Act.go_bind_ok (Plugin.start_started h p ctx) _

end Start

namespace Workshop

variable {w w' : Workshop} {id k : NodeId}

/-! ### Activations -/

/-- A container that is kept as it was found. -/
theorem Coherent.kept_again (hw : w.Coherent) {c : Container} {r : TaskRecord} (hc : w.Has c r) :
    Kept w (w.keeping c (c.bench w.store w.agency)) :=
  ⟨⟨rfl, rfl, rfl, .refl _, fun _ _ => rfl⟩,
    hw.keeping hc hc.bench_at rfl rfl rfl fun _ _ => rfl, rfl⟩

/-- The activation of a started task changes nothing, whatever it asks for. -/
theorem init_started (hw : w.Coherent) {a : Activation} {r : TaskRecord}
    (hr : w.store.records.get? a.nodeId = some r) (hs : r.state ≠ .initialized)
    (ctx : CallContext) :
    (init ctx a).Ends w (fun x w' => Kept w w' ∧ x = .unchanged .done)
      fun e w' => Kept w w' ∧
        (w.store.FailedBy w'.store e ∨ a.nodeId.text = "" ∨ a.instanceId.text = "") := by
  simp only [init, Act.ends_bind, Act.ends_ite, Act.ends_throw]
  split
  · exact ⟨.refl hw, .inr ‹_›⟩
  refine (activate_ends hw a).mono (fun c w₁ h => ?_) fun e w₁ h => ?_
  · obtain ⟨hcalm, hw₁, hc, hrec⟩ := h
    rw [begun_of_get? hr] at hc hrec
    have hstate : (c.bench w₁.store w₁.agency).handle.state ≠ .initialized := by
      rw [Container.bench, hc.copied]
      exact hs
    have hkept : Kept w w₁ := ⟨hcalm, hw₁, hrec⟩
    rw [ends_work, Act.Ends, Bench.startBy_started hstate]
    exact ⟨hkept.trans (hw₁.kept_again hc), rfl⟩
  · -- the record was built from before, so nothing but the store can have failed
    refine ⟨h.1, .inl (h.2.resolve_right fun hno => ?_)⟩
    exact Option.some_ne_none r (hr.symm.trans hno.1)

/-! ### Started tasks -/

/-- The task of the node has left the start. -/
def Started (w : Workshop) (id : NodeId) : Prop := w.lifecycle id ≠ .initialized

theorem Started.get? (h : w.Started id) :
    ∃ r, w.store.records.get? id = some r ∧ r.state ≠ .initialized := by
  obtain ⟨r, hr, hstate⟩ := get?_of_lifecycle rfl h
  exact ⟨r, hr, fun hno => h (hstate.symm.trans hno)⟩

theorem Started.of_eq (h : w.Started id)
    (hr : w'.store.records.get? id = w.store.records.get? id) : w'.Started id := by
  rw [Started, lifecycle_congr hr]
  exact h

theorem standing_fst_eq (w : Workshop) (id : NodeId) :
    (w.standing id).1 = .ofLifecycle (w.lifecycle id) := by
  rw [standing, lifecycle]
  cases w.store.records.get? id with
  | none => rfl
  | some r => exact r.standing_fst

theorem Serves.started (hs : Serves k w w') (h : w.Started id) : w'.Started id := by
  by_cases hid : id = k
  · subst hid
    have hstand := w'.standing_fst_eq id
    rcases hs.outcome with hstill | ⟨note, l, x, hm⟩
    · rw [hstill.standing, w.standing_fst_eq] at hstand
      rw [Started, ← NodeState.ofLifecycle_injective hstand]
      exact h
    · rw [hm.standing] at hstand
      rw [Started, ← NodeState.ofLifecycle_injective hstand]
      exact hm.started
  · exact h.of_eq (hs.elsewhere id hid)

theorem Served.started {P : NodeId → Prop} (hs : Served P w w') (h : w.Started id) :
    w'.Started id := by
  induction hs with
  | refl => exact h
  | serve _ _ hs ih => exact hs.started ih
  | count _ _ ih => exact ih

/-- An activation that is answered by a new state starts the task. -/
theorem started_of_init (hw : w.Coherent) {ctx : CallContext} {a : Activation} {x : Response}
    {s : Lifecycle} (h : (init ctx a).go w = (.ok x, w')) (hx : x.newState = some s) :
    w'.Started a.nodeId := by
  have hcourse := (init_reports hw ctx a).course
  rw [h, Response.moveOf, hx] at hcourse
  rw [Started]
  cases hcourse with
  | moves hlegal => exact (Lifecycle.canAdvanceTo_of_canMoveTo hlegal).2

end Workshop

end Clearance
