import Clearance.Task.Record

/-!
# Clearance — Workflow — Instances and nodes

A workflow instance and its nodes, one for each template of the definition it was made from.
-/

namespace Clearance

/-- The instance a node belongs to. -/
structure NodeOwner where
  kind : InstanceKind
  instanceId : InstanceId
  deriving DecidableEq, Repr, Inhabited

/-- A dependency on a node of the same instance. -/
structure ResolvedDependency where
  nodeId : NodeId
  templateId : TemplateId
  /-- The outcome the prerequisite has to have, if any. -/
  outcome : Option String
  deriving DecidableEq, Repr, Inhabited

structure WorkflowNode where
  id : NodeId
  owner : NodeOwner
  templateId : TemplateId
  name : String
  kind : TaskKind
  config : Json
  state : NodeState
  extendedState : Option String
  outcome : Option String
  dependencies : List ResolvedDependency
  unlockMode : UnlockMode
  terminal : Bool
  deriving DecidableEq, Inhabited

structure WorkflowInstance where
  id : InstanceId
  kind : InstanceKind
  /-- The name of the definition. -/
  definition : String
  globalContext : Context
  status : InstanceStatus
  deriving DecidableEq, Inhabited

namespace WorkflowNode

/-- Whether one of the node's dependencies is on `id`. -/
def dependsOn (n : WorkflowNode) (id : NodeId) : Bool := n.dependencies.any (·.nodeId == id)

/-- The request that activates the node. -/
def activation (n : WorkflowNode) (globalContext : Context) : Activation where
  nodeId := n.id
  instanceId := n.owner.instanceId
  templateId := n.templateId
  kind := n.kind
  config := n.config
  globalContext := globalContext

end WorkflowNode

open Decoder

namespace NodeOwner

def toJson (o : NodeOwner) : Json :=
  .obj [("kind", .str o.kind.text), ("id", .str o.instanceId.text)]

/-- What an owner is called where something else stands. -/
def formName : String := "adjacently tagged enum NodeOwner"

/-- The kind and the id, as an object or as an array of the two.  The kind says what the id is to be,
so it is read first wherever it stands. -/
def decode : Decoder NodeOwner := fun src d => do
  match d with
  | .map fields ending =>
    let inner ← inside src
    checkFields [slot "kind" .required InstanceKind.decode, slot "id" .required value]
      inner [] fields
    if ending = .cut then fail .unreadable
    let f : Fields := ⟨inner, fields⟩
    return ⟨← f.get "kind" InstanceKind.decode, ← f.get "id" InstanceId.decode⟩
  | .seq items ending =>
    let inner ← inside src
    match items with
    | [] => fail (.tooShort 0 formName)
    | [kind] => do
      let _ ← InstanceKind.decode inner kind
      fail (.tooShort 1 formName)
    | kind :: id :: rest => do
      let kind ← InstanceKind.decode inner kind
      let id ← InstanceId.decode inner id
      if !rest.isEmpty then fail (.tooLong items.length)
      if ending = .cut then fail .unreadable
      return ⟨kind, id⟩
  | d => unexpected formName d

end NodeOwner

namespace ResolvedDependency

def toJson (d : ResolvedDependency) : Json :=
  .obj [
    ("nodeId", .str d.nodeId.text),
    ("templateId", .str d.templateId.text),
    ("outcome", .ofText? d.outcome)]

def decode : Decoder ResolvedDependency := fun src d => do
  let f ← record "ResolvedDependency"
    [slot "nodeId" .required NodeId.decode, slot "templateId" .required TemplateId.decode,
      slot "outcome" .nullable (optional string)] src d
  return {
    nodeId := ← f.get "nodeId" NodeId.decode
    templateId := ← f.get "templateId" TemplateId.decode
    outcome := ← f.getD "outcome" (optional string) none }

end ResolvedDependency

namespace WorkflowNode

def toJson (n : WorkflowNode) : Json :=
  .obj [
    ("id", .str n.id.text),
    ("owner", n.owner.toJson),
    ("templateId", .str n.templateId.text),
    ("name", .str n.name),
    ("kind", .str n.kind.text),
    ("config", n.config),
    ("state", .str n.state.text),
    ("extendedState", .ofText? n.extendedState),
    ("outcome", .ofText? n.outcome),
    ("dependencies", .arr (n.dependencies.map ResolvedDependency.toJson)),
    ("unlockMode", .str n.unlockMode.text),
    ("terminal", .bool n.terminal)]

def slots : List Slot := [
  slot "id" .required NodeId.decode,
  slot "owner" .required NodeOwner.decode,
  slot "templateId" .required TemplateId.decode,
  slot "name" .required string,
  slot "kind" .required TaskKind.decode,
  slot "config" .required value,
  slot "state" .required NodeState.decode,
  slot "extendedState" .nullable (optional string),
  slot "outcome" .nullable (optional string),
  slot "dependencies" .required (list ResolvedDependency.decode),
  slot "unlockMode" .required UnlockMode.decode,
  slot "terminal" .required boolean,
  slot "updatedAt" .nullable time]

def decode : Decoder WorkflowNode := fun src d => do
  let f ← record "WorkflowNode" slots src d
  return {
    id := ← f.get "id" NodeId.decode
    owner := ← f.get "owner" NodeOwner.decode
    templateId := ← f.get "templateId" TemplateId.decode
    name := ← f.get "name" string
    kind := ← f.get "kind" TaskKind.decode
    config := ← f.get "config" value
    state := ← f.get "state" NodeState.decode
    extendedState := ← f.getD "extendedState" (optional string) none
    outcome := ← f.getD "outcome" (optional string) none
    dependencies := ← f.get "dependencies" (list ResolvedDependency.decode)
    unlockMode := ← f.get "unlockMode" UnlockMode.decode
    terminal := ← f.get "terminal" boolean }

end WorkflowNode

namespace WorkflowInstance

def toJson (i : WorkflowInstance) : Json :=
  .obj [
    ("id", .str i.id.text),
    ("kind", .str i.kind.text),
    ("definition", .str i.definition),
    ("globalContext", i.globalContext.toJson),
    ("status", .str i.status.text)]

def slots : List Slot := [
  slot "id" .required InstanceId.decode,
  slot "kind" .required InstanceKind.decode,
  slot "definition" .required string,
  slot "globalContext" .required context,
  slot "status" .required InstanceStatus.decode,
  slot "createdAt" .nullable time,
  slot "updatedAt" .nullable time]

def decode : Decoder WorkflowInstance := fun src d => do
  let f ← record "WorkflowInstance" slots src d
  return {
    id := ← f.get "id" InstanceId.decode
    kind := ← f.get "kind" InstanceKind.decode
    definition := ← f.get "definition" string
    globalContext := ← f.get "globalContext" context
    status := ← f.get "status" InstanceStatus.decode }

end WorkflowInstance

end Clearance
