import Clearance.Wire.Names
import Clearance.Wire.Time

/-!
# Clearance — Task — Records

What is stored of a task, and the request that activates one.
-/

namespace Clearance

/-- The durable record of one task. -/
structure TaskRecord where
  id : NodeId
  instanceId : InstanceId
  templateId : TemplateId
  kind : TaskKind
  state : Lifecycle
  config : Json
  /-- The context of the workflow when the task was activated. -/
  globalContext : Context
  /-- Data of this task alone. -/
  localState : Context
  /-- How far the plugin is within its lifecycle. -/
  pluginState : Option String
  deriving DecidableEq, Inhabited

/-- A request to activate a node. -/
structure Activation where
  nodeId : NodeId
  instanceId : InstanceId
  templateId : TemplateId
  kind : TaskKind
  config : Json
  globalContext : Context
  deriving DecidableEq, Inhabited

/-- The record a task starts with. -/
def Activation.record (a : Activation) : TaskRecord where
  id := a.nodeId
  instanceId := a.instanceId
  templateId := a.templateId
  kind := a.kind
  state := .initialized
  config := a.config
  globalContext := a.globalContext
  localState := {}
  pluginState := none

open Decoder

namespace TaskRecord

def toJson (r : TaskRecord) : Json :=
  .obj [
    ("id", .str r.id.text),
    ("instanceId", .str r.instanceId.text),
    ("templateId", .str r.templateId.text),
    ("kind", .str r.kind.text),
    ("state", .str r.state.text),
    ("config", r.config),
    ("globalContext", r.globalContext.toJson),
    ("localState", r.localState.toJson),
    ("pluginState", .ofText? r.pluginState)]

def slots : List Slot := [
  slot "id" .required NodeId.decode,
  slot "instanceId" .required InstanceId.decode,
  slot "templateId" .required TemplateId.decode,
  slot "kind" .required TaskKind.decode,
  slot "state" .required Lifecycle.decode,
  slot "config" .required value,
  slot "globalContext" .required context,
  slot "localState" .required context,
  slot "pluginState" .nullable (optional string),
  slot "createdAt" .nullable time,
  slot "updatedAt" .nullable time]

def decode : Decoder TaskRecord := fun src d => do
  let f ← record "TaskRecord" slots src d
  return {
    id := ← f.get "id" NodeId.decode
    instanceId := ← f.get "instanceId" InstanceId.decode
    templateId := ← f.get "templateId" TemplateId.decode
    kind := ← f.get "kind" TaskKind.decode
    state := ← f.get "state" Lifecycle.decode
    config := ← f.get "config" value
    globalContext := ← f.get "globalContext" context
    localState := ← f.get "localState" context
    pluginState := ← f.getD "pluginState" (optional string) none }

end TaskRecord

namespace Activation

def toJson (a : Activation) : Json :=
  .obj [
    ("nodeId", .str a.nodeId.text),
    ("instanceId", .str a.instanceId.text),
    ("templateId", .str a.templateId.text),
    ("kind", .str a.kind.text),
    ("config", a.config),
    ("globalContext", a.globalContext.toJson)]

def slots : List Slot := [
  slot "nodeId" .required NodeId.decode,
  slot "instanceId" .required InstanceId.decode,
  slot "templateId" .required TemplateId.decode,
  slot "kind" .required TaskKind.decode,
  slot "config" .defaulted value,
  slot "globalContext" .defaulted context]

def decode : Decoder Activation := fun src d => do
  let f ← Decoder.record "InitTaskRequest" slots src d
  return {
    nodeId := ← f.get "nodeId" NodeId.decode
    instanceId := ← f.get "instanceId" InstanceId.decode
    templateId := ← f.get "templateId" TemplateId.decode
    kind := ← f.get "kind" TaskKind.decode
    config := ← f.getD "config" value .null
    globalContext := ← f.getD "globalContext" context {} }

end Activation

end Clearance
