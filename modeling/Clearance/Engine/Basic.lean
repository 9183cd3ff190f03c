import Clearance.Task.Workshop
import Clearance.Workflow.Snapshot
import Clearance.Workflow.Store

/-!
# Clearance — Engine

An engine is the task layer and the store of workflows above it.  The workflow layer alone writes the
states of nodes; it learns of the tasks through the notifications they send.
-/

namespace Clearance

structure Engine where
  workshop : Workshop
  workflows : WorkflowStore := {}
  /-- How many instances the engine gave an id to. -/
  instancesMade : Nat := 0

namespace Engine

/-- An engine without instances. -/
def ofCapacity (containers notifications : Nat) : Engine where
  workshop := .ofCapacity containers notifications

instance : Inhabited Engine := ⟨{ workshop := default }⟩

/-- How many notifications a mailbox holds unless told otherwise. -/
def defaultMailboxCapacity : Nat := 64

/-- An operation of the task layer. -/
def onWorkshop {α : Type} (a : Act Workshop α) : Act Engine α :=
  a.on Engine.workshop fun w e => { e with workshop := w }

/-- A call to the store of workflows. -/
def onWorkflows {α : Type} (a : Act WorkflowStore α) : Act Engine α :=
  a.on Engine.workflows fun s e => { e with workflows := s }

/-! ### Queries -/

/-- The snapshot of an instance. -/
def instanceState (id : InstanceId) : Act Engine WorkflowState := do
  match ← onWorkflows (WorkflowStore.getInstance id) with
  | none => throw (.noInstance id)
  | some i =>
    let nodes ← onWorkflows (WorkflowStore.listNodes id)
    pure (.ofInstance i nodes)

def node (id : NodeId) : Act Engine WorkflowNode := do
  match ← onWorkflows (WorkflowStore.getNode id) with
  | none => throw (.noNode id)
  | some n => pure n

end Engine

end Clearance
