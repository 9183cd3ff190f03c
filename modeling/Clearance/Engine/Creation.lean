import Clearance.Definition.Order
import Clearance.Engine.Basic

/-!
# Clearance — Engine — Creation

Makes an instance of a definition: a node for each template, and a task for each node that has no
dependencies.  The tasks are activated before the instance is committed, so an instance never becomes
visible without its starting tasks.
-/

namespace Clearance

/-- The node an instance has for a template. -/
def WorkflowInstance.nodeFor (i : WorkflowInstance) (t : NodeTemplate) : WorkflowNode where
  id := i.id.node t.id
  owner := ⟨i.kind, i.id⟩
  templateId := t.id
  name := t.name
  kind := t.kind
  config := t.config
  state := if t.dependsOn.isEmpty then .ready else .locked
  extendedState := none
  outcome := none
  dependencies := t.dependsOn.map fun d => ⟨i.id.node d.template, d.template, d.outcome⟩
  unlockMode := t.unlock
  terminal := t.terminal

/-- A new instance with its nodes. -/
structure Created where
  inst : WorkflowInstance
  nodes : List WorkflowNode
  deriving DecidableEq

def Created.toJson (c : Created) : Json :=
  .obj [("instance", c.inst.toJson), ("nodes", .arr (c.nodes.map WorkflowNode.toJson))]

namespace Engine

/-- The id of a new instance. -/
def freshInstanceId : Act Engine InstanceId :=
  .of fun e => (.ok (.nth (e.instancesMade + 1)), { e with instancesMade := e.instancesMade + 1 })

/-- Fails if an instance with these nodes cannot be created. -/
def checkConflict (i : WorkflowInstance) (nodes : List WorkflowNode) : Act Engine Unit :=
  onWorkflows (.of fun s =>
    match s.conflict? i nodes with
    | some f => (.error f, s)
    | none => (.ok (), s))

/-- Commits an instance once `hook` has succeeded. -/
def commitAfter (hook : Act Engine Unit) (i : WorkflowInstance) (nodes : List WorkflowNode) :
    Act Engine Unit := do
  checkConflict i nodes
  hook
  onWorkflows (.of fun s => (.ok (), s.commit i nodes))

/-- Activates nodes in their order, up to the first that fails. -/
def activateAll (globalContext : Context) : List WorkflowNode → Act Engine Unit
  | [] => pure ()
  | n :: rest => do
    let _ ← onWorkshop (Workshop.init {} (n.activation globalContext))
    activateAll globalContext rest

/-- Makes an instance of a definition. -/
def createInstance (kind : InstanceKind) (d : WorkflowDefinition) (globalContext : Context) :
    Act Engine Created := do
  match d.validate with
  | .error e => throw (.invalidDefinition e)
  | .ok _ =>
    let id ← freshInstanceId
    let i : WorkflowInstance := ⟨id, kind, d.name, globalContext, .active⟩
    let nodes := d.templates.map i.nodeFor
    onWorkflows (WorkflowStore.enter .createInstance)
    commitAfter (activateAll globalContext (nodes.filter (·.state == .ready))) i nodes
    pure ⟨i, nodes⟩

end Engine

end Clearance
