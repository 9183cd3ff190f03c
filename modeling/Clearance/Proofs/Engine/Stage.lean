import Clearance.Proofs.Engine.Course
import Clearance.Proofs.Task.Staging

/-!
# Clearance — Proofs — Engine — Records follow the actions on them

* `Engine.committed`: the actions on a node that a run commits, in their order.
* `Engine.perform_staged`: every operation leaves the record of every node at the stage of the
  actions on it.
* `Engine.record_follows_actions`: what that makes of the states of forms and waits.
-/

namespace Clearance

namespace Engine

open Workshop

/-- The action of an operation, if it is on the node and its answer commits it. -/
def Op.commits (id : NodeId) : Op → Answer → List ActionRequest
  | .execute _ k q, .response r => if k = id then q.committedBy r else []
  | _, _ => []

/-- The actions on a node that operations one after the other commit. -/
def committed (id : NodeId) : List Op → Engine → List ActionRequest
  | [], _ => []
  | op :: rest, e => op.commits id (op.perform e).1 ++ committed id rest (op.perform e).2

variable {e : Engine} {id : NodeId} {done : List ActionRequest}

/-- An operation of which the workflow layer is a part leaves each node at a stage of the same
actions. -/
theorem perform_staged_of_not_outside (h : e.Steady) {op : Op} (hop : ¬ op.Outside)
    (hs : e.workshop.Staged id done) :
    (op.perform e).2.workshop.build = e.workshop.build ∧
      (op.perform e).2.workshop.Staged id done := by
  obtain ⟨as, hc⟩ := exists_course h op
  obtain ⟨w, hw, hrecords, hbuild, hi⟩ := hc.inits h hop
  obtain ⟨-, hb, hst⟩ := hi.staged hw (hs.of_eq (by rw [hrecords]) hbuild)
  exact ⟨hb.trans hbuild, hst⟩

/-- One operation leaves the record of a node at the stage of the actions on it. -/
theorem perform_staged (h : e.Steady) (op : Op) (hs : e.workshop.Staged id done) :
    (op.perform e).2.workshop.build = e.workshop.build ∧
      (op.perform e).2.workshop.Staged id (done ++ op.commits id (op.perform e).1) := by
  have hw := h.coherent
  -- only an execution commits an action
  have hsame : op.commits id (op.perform e).1 = [] →
      (op.perform e).2.workshop.build = e.workshop.build ∧
        (op.perform e).2.workshop.Staged id done →
      (op.perform e).2.workshop.build = e.workshop.build ∧
        (op.perform e).2.workshop.Staged id (done ++ op.commits id (op.perform e).1) := by
    intro hno hkeep
    rw [hno, List.append_nil]
    exact hkeep
  cases op with
  | create _ _ _ => exact hsame rfl (perform_staged_of_not_outside h nofun hs)
  | deliver => exact hsame rfl (perform_staged_of_not_outside h nofun hs)
  | notify _ => exact hsame rfl (perform_staged_of_not_outside h nofun hs)
  | init ctx a =>
      have hserves := init_serves hw ctx a
      exact hsame rfl ⟨hserves.build, hserves.staged hs (init_staged hw ctx)⟩
  | execute ctx k q =>
      have hserves := execute_serves hw ctx k q
      by_cases hid : id = k
      · subst hid
        refine ⟨hserves.build, ?_⟩
        have hcommits : (Op.execute ctx id q).commits id ((Op.execute ctx id q).perform e).1 =
            q.committedBy ((Workshop.execute ctx id q).go e.workshop).1 := if_pos rfl
        rw [hcommits]
        exact execute_staged hw hs ctx q
      · exact hsame (if_neg (Ne.symm hid)) ⟨hserves.build,
          hs.of_eq (hserves.elsewhere id hid) hserves.build⟩
  | render ctx k =>
      have hserves := render_serves hw ctx k
      exact hsame rfl ⟨hserves.build, hserves.staged hs fun h => render_staged hw h ctx⟩
  | snapshot k =>
      have hserves := snapshot_serves hw k
      exact hsame rfl ⟨hserves.build, hserves.staged hs (snapshot_staged hw)⟩
  | outage _ _ => exact hsame rfl ⟨rfl, hs.of_eq rfl rfl⟩
  | agencies _ _ => exact hsame rfl ⟨rfl, hs.of_eq rfl rfl⟩
  | close => exact hsame rfl ⟨rfl, hs.of_eq rfl rfl⟩
  | discard => exact hsame rfl ⟨rfl, hs.of_eq rfl rfl⟩

/-- A run leaves the record of a node at the stage of the actions on it. -/
theorem after_staged (h : e.Steady) (ops : List Op) (hs : e.workshop.Staged id done) :
    (after ops e).workshop.build = e.workshop.build ∧
      (after ops e).workshop.Staged id (done ++ committed id ops e) := by
  induction ops generalizing e done with
  | nil =>
      rw [committed, List.append_nil]
      exact ⟨rfl, hs⟩
  | cons op rest ih =>
      obtain ⟨hb, hop⟩ := perform_staged h op hs
      obtain ⟨hb', hrest⟩ := ih (h.effect (effect_perform h op)) hop
      rw [committed, ← List.append_assoc]
      exact ⟨hb'.trans hb, hrest⟩

/-- **Records follow the actions on them.** In whatever order tasks are activated, acted on,
rendered and copied, whatever the agencies reply and whichever calls to the task store fail, a form
and a wait show one of five pairs of states each.  A form that needs a review is completed only by a
submission and a review with a decision, and a form that does not need one comes to none.  Once a
form was submitted there is one submission that was committed, and the record holds it with what the
agency replied. -/
theorem record_follows_actions (containers notifications : Nat) (ops : List Op) {id : NodeId}
    {r : TaskRecord}
    (hr : (after ops (ofCapacity containers notifications)).workshop.store.records.get? id =
      some r) :
    (r.kind = .simpleForm → ∃ c, FormConfig.parse r.config = .ok c ∧
      (r.state, r.pluginState) ∈
        [(.initialized, none), (.inProgress, some FormState.awaitingInput),
          (.inProgress, some FormState.awaitingReview), (.completed, some FormState.submitted),
          (.completed, some FormState.reviewed)] ∧
      (c.requiresReview = true → r.state = .completed →
        r.pluginState = some FormState.reviewed ∧
          ∃ q q', committed id ops (ofCapacity containers notifications) = [q, q'] ∧
            c.Holds r.localState q ∧ FormConfig.Decides q') ∧
      (c.requiresReview = false → r.pluginState ≠ some FormState.awaitingReview ∧
        r.pluginState ≠ some FormState.reviewed) ∧
      (r.pluginState ∈ [some FormState.awaitingReview, some FormState.submitted,
          some FormState.reviewed] →
        ∃ q, (committed id ops (ofCapacity containers notifications)).filter
            (·.action = "submit") = [q] ∧ c.Holds r.localState q)) ∧
    (r.kind = .waitForEvent →
      (r.state, r.pluginState) ∈
        [(.initialized, none), (.initialized, some EventState.waiting),
          (.inProgress, some EventState.waiting), (.completed, some EventState.received),
          (.failed, some EventState.failed)]) := by
  have hfirst : (ofCapacity containers notifications).workshop.Staged id [] :=
    staged_of_none rfl rfl
  obtain ⟨hbuild, hstaged⟩ := after_staged (steady_ofCapacity containers notifications) ops hfirst
  rw [Staged, hr, hbuild] at hstaged
  obtain ⟨p, hp, hS⟩ := hstaged
  have hp : Plugin.build r.kind r.config = .ok p := hp
  refine ⟨fun hkind => ?_, fun hkind => ?_⟩
  · obtain ⟨c, hc, rfl⟩ := Plugin.of_build_form (hkind ▸ hp)
    have hS : c.Stage r (committed id ops (ofCapacity containers notifications)) := hS
    refine ⟨c, hc, hS.mem_states, hS.of_completed, fun hno => ⟨fun hp => ?_, fun hp => ?_⟩,
      hS.of_submitted⟩
    · cases hno.symm.trans (hS.requires (.inl hp))
    · cases hno.symm.trans (hS.requires (.inr hp))
  · obtain ⟨c, rfl⟩ := Plugin.of_build_event (hkind ▸ hp)
    have hS : EventConfig.Stage r (committed id ops (ofCapacity containers notifications)) := hS
    exact hS.mem_states

/-- A form that needs a review is activated, submitted and reviewed. -/
def reviewedForm : List Op :=
  [.init {} ⟨⟨"n"⟩, ⟨"i"⟩, ⟨"t"⟩, .simpleForm,
      .obj [("formId", .str "F"), ("requiresReview", .bool true)], {}⟩,
    .execute {} ⟨"n"⟩ ⟨"submit", .obj []⟩,
    .execute {} ⟨"n"⟩ ⟨"review_complete", .obj [("decision", .str "granted")]⟩]

/-- The record of a form that was reviewed holds what was submitted. -/
theorem record_follows_actions_reviewed :
    ∃ r c q, (after reviewedForm (ofCapacity 1 1)).workshop.store.records.get? ⟨"n"⟩ = some r ∧
      FormConfig.parse r.config = .ok c ∧ r.pluginState = some FormState.reviewed ∧
      (committed ⟨"n"⟩ reviewedForm (ofCapacity 1 1)).filter (·.action = "submit") = [q] ∧
      c.Holds r.localState q := by
  have hshows : ((after reviewedForm (ofCapacity 1 1)).workshop.store.records.get? ⟨"n"⟩).map
      (fun r => (r.kind, r.pluginState)) = some (.simpleForm, some FormState.reviewed) := by
    decide +kernel
  obtain ⟨r, hr, hstate⟩ := Option.map_eq_some_iff.mp hshows
  obtain ⟨hkind, hp⟩ := Prod.mk.inj hstate
  obtain ⟨c, hc, -, -, -, hone⟩ := (record_follows_actions 1 1 reviewedForm hr).1 hkind
  obtain ⟨q, hq, hholds⟩ := hone (by rw [hp]; decide)
  exact ⟨r, c, q, hr, hc, hp, hq, hholds⟩

end Engine

end Clearance
