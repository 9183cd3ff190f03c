import Clearance.Proofs.Task.Announced

/-!
# Clearance — Proofs — Task — The outcome of a task

The agency reports what a task came to: the decision on a form, or the outcome of an event.

* `ActionRequest.Declares`: a request that reports it.
* `Response.Decides`: a response by which the task is completed with an outcome.
* `Workshop.execute_decides`: the task is completed with the upper case of what is reported.
* `Workshop.announces_decision`: and that is what is announced of it.
-/

namespace Clearance

/-- The request reports this outcome of a task. -/
inductive ActionRequest.Declares (q : ActionRequest) (outcome : String) : Prop
  | review (ha : q.action = "review_complete")
      (hc : q.content.get? "decision" = some (.str outcome)) : Declares q outcome
  | event (ha : q.action = "event_received")
      (hc : q.content.get? "outcome" = some (.str outcome)) : Declares q outcome

/-- By the response the task is completed, with this outcome. -/
structure Response.Decides (x : Response) (outcome : String) : Prop where
  state : x.newState = some .completed
  outcome : x.outcome = some outcome

open Act Bench

/-! ### The logic of the plugins -/

/-- A text without white space at its ends is the decision that is taken, in upper case. -/
theorem FormConfig.decision?_eq {content : Json} {s : String}
    (hc : content.get? "decision" = some (.str s)) (ht : Text.trim s = s) (hs : s ≠ "") :
    decision? content = some (Text.upper s) := by
  rw [decision?, hc]
  simp only [Option.bind_eq_bind, Option.bind_some, Json.str?, ht, if_neg hs]

theorem FormConfig.completeReview_decides (c : FormConfig) {content : Json} {s : String}
    (hc : content.get? "decision" = some (.str s)) (ht : Text.trim s = s) (hs : s ≠ "")
    (b : Bench) :
    (c.completeReview content).Ends b (fun x _ => x.Decides (Text.upper s)) fun _ _ => True := by
  refine ends_bind_of_forall fun h b₁ => ?_
  rw [decision?_eq hc ht hs]
  dsimp only
  split
  · exact trivial
  · exact ends_bind_of_forall fun _ _ => ⟨rfl, rfl⟩

/-- Content with an outcome is an object. -/
theorem objectContent_of_get? {content v : Json} {key : String} (hc : content.get? key = some v) :
    objectContent content = .ok content := by
  cases content with
  | obj _ => rfl
  | _ => cases hc

theorem EventConfig.receive_decides (c : EventConfig) {content : Json} {s : String}
    (hc : content.get? "outcome" = some (.str s)) (b : Bench) :
    (c.receive content).Ends b (fun x _ => x.Decides (Text.upper s)) fun _ _ => True := by
  have hout : ∀ event, (c.receivedResponse event content).Decides (Text.upper s) := by
    intro event
    refine ⟨rfl, ?_⟩
    rw [receivedResponse, hc]
    rfl
  rw [receive, objectContent_of_get? hc, ends_bind, ends_lift]
  dsimp only
  split
  · exact trivial
  · exact ends_bind_of_forall fun _ _ => hout _

variable {q : ActionRequest} {s : String}

/-- Whatever plugin it is that takes the report, if one does, it completes the task so. -/
theorem Plugin.execute_decides (p : Plugin) (ctx : CallContext) (hq : q.Declares s)
    (ht : Text.trim s = s) (hs : s ≠ "") (b : Bench) :
    (p.execute ctx q).Ends b (fun x _ => x.Decides (Text.upper s)) fun _ _ => True := by
  cases p with
  | form c =>
      cases hq with
      | review ha hc =>
          rw [execute, FormConfig.execute, ha]
          exact c.completeReview_decides hc ht hs b
      | event ha _ =>
          rw [execute, FormConfig.execute, ha]
          exact trivial
  | event c =>
      cases hq with
      | review ha _ =>
          rw [execute, EventConfig.execute, ha]
          exact trivial
      | event ha hc =>
          rw [execute, EventConfig.execute, ha]
          exact c.receive_decides hc b

/-! ### The task layer -/

section Answers

variable {V : Response → Prop}

/-- What holds of every response of a plugin holds of every answer that is settled. -/
theorem Bench.executeBy_answers {logic : Act Bench Response}
    (hl : ∀ b, logic.Ends b (fun x _ => V x) fun _ _ => True) (b : Bench) :
    (executeBy logic).Ends b (fun x _ => V x) fun _ _ => True := by
  refine ends_bind_of_forall fun h b₁ => ?_
  dsimp only
  split
  · exact trivial
  rw [ends_bind]
  refine (hl b₁).mono (fun x b₂ hx => ?_) fun _ _ _ => trivial
  rw [settle]
  cases x.newState with
  | none => exact hx
  | some next => exact ends_bind_of_forall fun _ _ => hx

/-- An announcement answers the response that it is about. -/
theorem Workshop.announce_answers {x : Response} (hx : V x) (id : NodeId) (w : Workshop) :
    (announce id x).Ends w (fun y _ => V y) fun _ _ => True := by
  rw [announce]
  cases x.notification? id with
  | none => exact hx
  | some note => exact ends_bind_of_forall fun _ _ => hx

end Answers

namespace Workshop

/-- A report that is taken completes the task with its outcome in upper case. -/
theorem execute_decides (ctx : CallContext) (id : NodeId) (hq : q.Declares s)
    (ht : Text.trim s = s) (hs : s ≠ "") (w : Workshop) :
    (execute ctx id q).Ends w (fun x _ => x.Decides (Text.upper s)) fun _ _ => True := by
  rw [execute]
  split
  · exact trivial
  refine ends_bind_of_forall fun c w₁ => ?_
  rw [ends_bind, ends_work]
  refine (executeBy_answers (c.plugin.execute_decides ctx hq ht hs) _).mono (fun x b hx => ?_)
    fun _ _ _ => trivial
  exact announce_answers hx _ _

/-- What is sent of a report that is taken is that the task is completed, with the outcome in upper
case. -/
theorem announces_decision {w w' : Workshop} (hw : w.Coherent) {ctx : CallContext} {id : NodeId}
    (hq : q.Declares s) (ht : Text.trim s = s) (hs : s ≠ "") {x : Response}
    (hgo : (execute ctx id q).go w = (.ok x, w')) :
    ∃ note, Sends (some note) w w' ∧ note.nodeId = id ∧
      note.lifecycle = some Lifecycle.completed.text ∧ note.outcome = some (Text.upper s) := by
  have hx := (ends_iff.mp (execute_decides ctx id hq ht hs w)).1 x w' hgo
  have hsends := (execute_reports hw ctx id q).sends
  rw [hgo] at hsends
  refine ⟨⟨id, some Lifecycle.completed.text, x.extendedState, x.outcome, x.contextUpdates⟩, ?_,
    rfl, rfl, hx.outcome⟩
  rw [← Response.notification?_of_some hx.state]
  exact hsends

end Workshop

end Clearance
