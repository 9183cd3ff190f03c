import Clearance.Engine.Creation
import Clearance.Proofs.Engine.Handle

/-!
# Clearance — Proofs — Engine — What the workflow layer is made of

* `Engine.Layered`: a property that all actions of an engine have which the workflow layer puts
  together out of its calls to the store, the activations of tasks and its counters.
* `Engine.Layered.createInstance`, `Engine.Layered.handle`: creating an instance and handling a
  notification are such actions.
-/

namespace Clearance

namespace Engine

open Act

/-- The steps of the workflow layer have the property, and so has what is made of them. -/
structure Layered (P : ∀ {α : Type}, Act Engine α → Prop) : Prop extends Closed P where
  workflows : ∀ {α : Type} (a : Act WorkflowStore α), P (onWorkflows a)
  fresh : P freshInstanceId
  init : ∀ a : Activation, P (onWorkshop (Workshop.init {} a))
  unlocked : P (onWorkshop (Workshop.count .nodeUnlocked))
  unregistered : P (onWorkshop (Workshop.count .unlockRegistrationFailed))

namespace Layered

variable {P : ∀ {α : Type}, Act Engine α → Prop}

/-! ### Creating an instance -/

theorem activateAll (h : Layered @P) (globalContext : Context) (l : List WorkflowNode) :
    P (activateAll globalContext l) := by
  induction l with
  | nil => exact h.pure _
  | cons n rest ih => exact h.bind (h.init _) fun _ => ih

theorem createInstance (h : Layered @P) (kind : InstanceKind) (d : WorkflowDefinition)
    (globalContext : Context) : P (createInstance kind d globalContext) := by
  unfold Engine.createInstance
  cases d.validate with
  | error f => exact h.throw _
  | ok order =>
      refine h.bind h.fresh fun id => h.bind (h.workflows _) fun _ => h.bind ?_ fun _ => h.pure _
      refine h.bind (h.workflows _) fun _ => ?_
      exact h.bind (h.activateAll globalContext _) fun _ => h.workflows _

/-! ### Handling a notification -/

theorem projected (h : Layered @P) (note : Notification) : P (projected note) := by
  unfold Engine.projected
  cases note.lifecycle with
  | none => exact h.pure _
  | some text => exact h.map (h.lift (project text)) some

theorem node (h : Layered @P) (id : NodeId) : P (node id) := by
  refine h.bind (h.workflows _) fun n? => ?_
  cases n? with
  | none => exact h.throw _
  | some n => exact h.pure n

theorem owningInstance (h : Layered @P) (o : NodeOwner) : P (owningInstance o) := by
  refine h.bind (h.workflows _) fun i? => ?_
  cases i? with
  | none => exact h.throw _
  | some i => exact h.check (h.pure i)

theorem mergedContext (h : Layered @P) (i : WorkflowInstance) (updates : Context) :
    P (mergedContext i updates) :=
  iteInduction (fun _ => h.pure _) fun _ => h.workflows _

theorem markReady (h : Layered @P) (l : List WorkflowNode) : P (markReady l) := by
  induction l with
  | nil => exact h.pure _
  | cons n rest ih => exact h.bind (h.workflows _) fun _ => h.bind h.unlocked fun _ => ih

theorem activateEach (h : Layered @P) (globalContext : Context) (l : List WorkflowNode) :
    P (activateEach globalContext l) := by
  induction l with
  | nil => exact h.pure _
  | cons n rest ih =>
      refine h.bind (h.attempt (h.init _)) fun r => ?_
      cases r with
      | ok _ => exact ih
      | error _ => exact h.bind h.unregistered fun _ => ih

theorem unlockDependents (h : Layered @P) (m : WorkflowNode) (globalContext : Context) :
    P (unlockDependents m globalContext) :=
  h.bind (h.workflows _) fun _ => h.bind (h.markReady _) fun _ =>
    h.bind (h.activateEach globalContext _) fun _ => h.pure _

theorem conclude (h : Layered @P) (note : Notification) (n : WorkflowNode) (i : WorkflowInstance)
    (next : NodeState) (globalContext : Context) : P (conclude note n i next globalContext) := by
  have hunlock : ∀ unlock : List NodeId → Act Engine Progress, (∀ ids, P (unlock ids)) →
      P (if next = .completed then
        Engine.unlockDependents (n.advance next note) globalContext >>= unlock
        else pure [] >>= unlock) :=
    fun unlock hu => iteInduction (fun _ => h.bind (h.unlockDependents _ _) hu)
      fun _ => h.bind (h.pure _) hu
  exact iteInduction (fun _ => h.bind (h.workflows _) fun _ => hunlock _ fun _ => h.pure _)
    fun _ => hunlock _ fun _ => h.pure _

theorem handle (h : Layered @P) (note : Notification) : P (handle note) := by
  rw [handle_eq]
  refine h.bind (h.projected note) fun p? => h.bind (h.node _) fun n => ?_
  refine h.bind (h.owningInstance _) fun i => iteInduction (fun _ => ?_) fun _ => h.throw _
  refine h.bind (h.workflows _) fun _ => h.bind (h.mergedContext i _) fun globalContext => ?_
  exact h.conclude note n i _ globalContext

end Layered

end Engine

end Clearance
