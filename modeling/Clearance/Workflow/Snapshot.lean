import Clearance.Workflow.Node

/-!
# Clearance — Workflow — Snapshots

A read-only view of an instance: its nodes ordered by template, and how many are in each state.
-/

namespace Clearance

open Decoder

structure NodeSummary where
  nodeId : NodeId
  templateId : TemplateId
  name : String
  state : NodeState
  extendedState : Option String
  outcome : Option String
  deriving DecidableEq, Repr, Inhabited

namespace NodeSummary

def ofNode (n : WorkflowNode) : NodeSummary :=
  ⟨n.id, n.templateId, n.name, n.state, n.extendedState, n.outcome⟩

/-- A field that is left out when there is nothing to say. -/
def field? (name : String) : Option String → List (String × Json)
  | some s => [(name, .str s)]
  | none => []

def toJson (s : NodeSummary) : Json :=
  .obj ([
    ("nodeId", Json.str s.nodeId.text),
    ("templateId", .str s.templateId.text),
    ("name", .str s.name),
    ("state", .str s.state.text)] ++
    field? "extendedState" s.extendedState ++ field? "outcome" s.outcome)

def decode : Decoder NodeSummary := fun src d => do
  let f ← record "NodeSummary"
    [slot "nodeId" .required NodeId.decode, slot "templateId" .required TemplateId.decode,
      slot "name" .required string, slot "state" .required NodeState.decode,
      slot "extendedState" .nullable (optional string),
      slot "outcome" .nullable (optional string)] src d
  return {
    nodeId := ← f.get "nodeId" NodeId.decode
    templateId := ← f.get "templateId" TemplateId.decode
    name := ← f.get "name" string
    state := ← f.get "state" NodeState.decode
    extendedState := ← f.getD "extendedState" (optional string) none
    outcome := ← f.getD "outcome" (optional string) none }

end NodeSummary

/-- How many nodes are in each state. -/
structure StateCounts where
  locked : Nat := 0
  ready : Nat := 0
  inProgress : Nat := 0
  completed : Nat := 0
  failed : Nat := 0
  deriving DecidableEq, Repr, Inhabited

namespace StateCounts

/-- Counts one more node in a state. -/
def add (c : StateCounts) : NodeState → StateCounts
  | .locked => { c with locked := c.locked + 1 }
  | .ready => { c with ready := c.ready + 1 }
  | .inProgress => { c with inProgress := c.inProgress + 1 }
  | .completed => { c with completed := c.completed + 1 }
  | .failed => { c with failed := c.failed + 1 }

def toJson (c : StateCounts) : Json :=
  .obj [
    ("locked", .int c.locked),
    ("ready", .int c.ready),
    ("inProgress", .int c.inProgress),
    ("completed", .int c.completed),
    ("failed", .int c.failed)]

def decode : Decoder StateCounts := fun src d => do
  let count := natural "usize"
  let f ← record "StateCounts"
    [slot "locked" .required count, slot "ready" .required count,
      slot "inProgress" .required count, slot "completed" .required count,
      slot "failed" .required count] src d
  return {
    locked := ← f.get "locked" count
    ready := ← f.get "ready" count
    inProgress := ← f.get "inProgress" count
    completed := ← f.get "completed" count
    failed := ← f.get "failed" count }

end StateCounts

structure WorkflowState where
  instanceId : InstanceId
  kind : InstanceKind
  definition : String
  status : InstanceStatus
  globalContext : Context
  counts : StateCounts
  nodes : List NodeSummary
  deriving DecidableEq, Inhabited

namespace WorkflowState

/-- The snapshot of an instance with these nodes, which it orders by template id. -/
def ofInstance (i : WorkflowInstance) (nodes : List WorkflowNode) : WorkflowState :=
  let summaries := (nodes.map NodeSummary.ofNode).mergeSort
    fun a b => decide (a.templateId.text ≤ b.templateId.text)
  { instanceId := i.id
    kind := i.kind
    definition := i.definition
    status := i.status
    globalContext := i.globalContext
    counts := summaries.foldl (fun c s => c.add s.state) {}
    nodes := summaries }

/-- The first node of a template. -/
def node? (s : WorkflowState) (template : TemplateId) : Option NodeSummary :=
  s.nodes.find? (·.templateId == template)

def countIn (s : WorkflowState) (state : NodeState) : Nat :=
  (s.nodes.filter (·.state == state)).length

def isComplete (s : WorkflowState) : Bool := s.status == .completed

def toJson (s : WorkflowState) : Json :=
  .obj [
    ("instanceId", .str s.instanceId.text),
    ("kind", .str s.kind.text),
    ("definition", .str s.definition),
    ("status", .str s.status.text),
    ("globalContext", s.globalContext.toJson),
    ("counts", s.counts.toJson),
    ("nodes", .arr (s.nodes.map NodeSummary.toJson))]

def decode : Decoder WorkflowState := fun src d => do
  let f ← record "WorkflowState"
    [slot "instanceId" .required InstanceId.decode, slot "kind" .required InstanceKind.decode,
      slot "definition" .required string, slot "status" .required InstanceStatus.decode,
      slot "globalContext" .required context, slot "counts" .required StateCounts.decode,
      slot "nodes" .required (list NodeSummary.decode)] src d
  return {
    instanceId := ← f.get "instanceId" InstanceId.decode
    kind := ← f.get "kind" InstanceKind.decode
    definition := ← f.get "definition" string
    status := ← f.get "status" InstanceStatus.decode
    globalContext := ← f.get "globalContext" context
    counts := ← f.get "counts" StateCounts.decode
    nodes := ← f.get "nodes" (list NodeSummary.decode) }

end WorkflowState

end Clearance
