import Clearance.Engine.Basic
import Clearance.Workflow.Projection

/-!
# Clearance — Engine — Progress

What a notification does to the workflow of its node: the node advances, the context of the instance
takes the updates, a decisive node ends the instance, and a completed node unlocks those of its
dependents whose dependencies are now satisfied.
-/

namespace Clearance

/-- What one notification changed. -/
structure Progress where
  nodeId : NodeId
  previous : NodeState
  state : NodeState
  /-- The dependents it unlocked. -/
  unlocked : List NodeId
  status : InstanceStatus
  deriving DecidableEq, Repr

def Progress.toJson (p : Progress) : Json :=
  .obj [
    ("nodeId", .str p.nodeId.text),
    ("previous", .str p.previous.text),
    ("state", .str p.state.text),
    ("unlocked", .arr (p.unlocked.map fun id => .str id.text)),
    ("instanceStatus", .str p.status.text)]

/-- The node after a notification that moves it to `next`.  Only a completed node takes an outcome. -/
def WorkflowNode.advance (n : WorkflowNode) (next : NodeState) (note : Notification) :
    WorkflowNode :=
  { n with
    state := next
    extendedState := note.extendedState.or n.extendedState
    outcome := if next = .completed then note.outcome.or n.outcome else n.outcome }

/-- The status of an instance after one of its nodes, terminal or not, came to a state. -/
def InstanceStatus.after (s : InstanceStatus) (terminal : Bool) (state : NodeState) :
    InstanceStatus :=
  if s = .active then
    if state = .failed then .failed
    else if state = .completed ∧ terminal then .completed
    else s
  else s

/-- The locked nodes that depend on `id` and are satisfied, in ascending order of their ids. -/
def unlockable (nodes : List WorkflowNode) (id : NodeId) : List WorkflowNode :=
  let nodes := nodes.eraseDupsBy fun a b => a.id == b.id
  (nodes.filter fun n => n.state == .locked && n.dependsOn id && n.satisfied (nodeIn nodes)).mergeSort
    fun a b => decide (a.id.text ≤ b.id.text)

namespace Engine

/-- The instance of an owner, which has to be of the kind that the owner says. -/
def owningInstance (o : NodeOwner) : Act Engine WorkflowInstance := do
  match ← onWorkflows (WorkflowStore.getInstance o.instanceId) with
  | none => throw (.noInstance o.instanceId)
  | some i =>
    if i.kind ≠ o.kind then throw (.ownerMismatch i.id i.kind o.kind)
    pure i

/-- Stores each node as ready. -/
def markReady : List WorkflowNode → Act Engine Unit
  | [] => pure ()
  | n :: rest => do
    onWorkflows (WorkflowStore.updateNode { n with state := .ready })
    onWorkshop (Workshop.count .nodeUnlocked)
    markReady rest

/-- Activates each node; one that fails is counted, and the others are still activated. -/
def activateEach (globalContext : Context) : List WorkflowNode → Act Engine Unit
  | [] => pure ()
  | n :: rest => do
    match ← Act.attempt (onWorkshop (Workshop.init {} (n.activation globalContext))) with
    | .ok _ => pure ()
    | .error _ => onWorkshop (Workshop.count .unlockRegistrationFailed)
    activateEach globalContext rest

/-- Unlocks the dependents of a completed node and activates them. -/
def unlockDependents (completed : WorkflowNode) (globalContext : Context) :
    Act Engine (List NodeId) := do
  let nodes ← onWorkflows (WorkflowStore.listNodes completed.owner.instanceId)
  let ready := unlockable nodes completed.id
  markReady ready
  activateEach globalContext ready
  pure (ready.map (·.id))

/-- The context of an instance after updates. -/
def mergedContext (i : WorkflowInstance) (updates : Context) : Act Engine Context :=
  if updates.isEmpty then pure i.globalContext
  else onWorkflows (WorkflowStore.mergeContext i.id updates)

/-- Applies a notification to the workflow of its node. -/
def handle (note : Notification) : Act Engine Progress := do
  let projected ← match note.lifecycle with
    | none => pure none
    | some text => some <$> Act.lift (project text)
  let n ← node note.nodeId
  let i ← owningInstance n.owner
  let next := projected.getD n.state
  if !n.state.canAdvanceTo next then throw (.cannotAdvance n.id n.state next)
  let advanced := n.advance next note
  onWorkflows (WorkflowStore.updateNode advanced)
  let globalContext ← mergedContext i note.contextUpdates
  let status := i.status.after n.terminal next
  if status ≠ i.status then onWorkflows (WorkflowStore.setInstanceStatus i.id status)
  let unlocked ← if next = .completed then unlockDependents advanced globalContext else pure []
  pure ⟨n.id, n.state, next, unlocked, status⟩

/-- Applies a notification and counts whether it succeeded. -/
def process (note : Notification) : Act Engine Unit := do
  match ← Act.attempt (handle note) with
  | .ok _ => onWorkshop (Workshop.count .notificationProcessed)
  | .error _ => onWorkshop (Workshop.count .notificationFailed)

end Engine

end Clearance
