import Clearance.Act
import Clearance.Faults
import Clearance.Table
import Clearance.Workflow.Node

/-!
# Clearance — Workflow — Store

The store of instances and their nodes.  Creating an instance runs a hook first and commits only if
the hook succeeds, so an instance is seen whole or not at all.
-/

namespace Clearance

/-- The calls to a workflow store. -/
inductive WorkflowStore.Method where
  | createInstance
  | getInstance
  | getNode
  | listNodes
  | updateNode
  | mergeContext
  | setInstanceStatus
  deriving DecidableEq, Repr

def WorkflowStore.Method.all : List WorkflowStore.Method :=
  [.createInstance, .getInstance, .getNode, .listNodes, .updateNode, .mergeContext,
    .setInstanceStatus]

def WorkflowStore.Method.text : WorkflowStore.Method → String
  | .createInstance => "create_instance"
  | .getInstance => "get_instance"
  | .getNode => "get_node"
  | .listNodes => "list_nodes"
  | .updateNode => "update_node"
  | .mergeContext => "merge_context"
  | .setInstanceStatus => "set_instance_status"

def WorkflowStore.Method.ofText? (s : String) : Option WorkflowStore.Method :=
  all.find? (·.text == s)

structure WorkflowStore where
  instances : Table InstanceId WorkflowInstance := .empty
  nodes : Table NodeId WorkflowNode := .empty
  /-- The nodes of each instance, in the order of its templates. -/
  members : Table InstanceId (List NodeId) := .empty
  faults : Faults WorkflowStore.Method := .none
  /-- How many calls were made. -/
  calls : Nat := 0

instance : Inhabited WorkflowStore := ⟨{}⟩

namespace WorkflowStore

/-- Starts a call, which may end it. -/
def enter (m : Method) : Act WorkflowStore Unit :=
  .of fun s =>
    (if s.faults s.calls m then .error (.storeFault m.text) else .ok (),
      { s with calls := s.calls + 1 })

/-- Why an instance with these nodes cannot be created, if it cannot. -/
def conflict? (s : WorkflowStore) (i : WorkflowInstance) (nodes : List WorkflowNode) :
    Option Failure :=
  if s.instances.contains i.id then some (.instanceExists i.id)
  else (nodes.find? fun n => s.nodes.contains n.id).map fun n => .nodeExists n.id

/-- The store with an instance and its nodes. -/
def commit (s : WorkflowStore) (i : WorkflowInstance) (nodes : List WorkflowNode) : WorkflowStore :=
  { s with
    members := s.members.insert i.id (nodes.map (·.id))
    nodes := nodes.foldl (fun t n => t.insert n.id n) s.nodes
    instances := s.instances.insert i.id i }

/-- The nodes of an instance that is known. -/
def nodesOf? (s : WorkflowStore) (id : InstanceId) : Option (List WorkflowNode) :=
  (s.members.get? id).map fun ids => ids.filterMap s.nodes.get?

def instance? (id : InstanceId) : Act WorkflowStore (Option WorkflowInstance) :=
  .of fun s => (.ok (s.instances.get? id), s)

def node? (id : NodeId) : Act WorkflowStore (Option WorkflowNode) :=
  .of fun s => (.ok (s.nodes.get? id), s)

def nodesOf (id : InstanceId) : Act WorkflowStore (List WorkflowNode) :=
  .of fun s =>
    match s.nodesOf? id with
    | some nodes => (.ok nodes, s)
    | none => (.error (.noInstance id), s)

/-- Replaces a node, which has to be there. -/
def putNode (n : WorkflowNode) : Act WorkflowStore Unit :=
  .of fun s =>
    if s.nodes.contains n.id then (.ok (), { s with nodes := s.nodes.insert n.id n })
    else (.error (.noNode n.id), s)

/-- Changes an instance, which has to be there, and answers it. -/
def modifyInstance (id : InstanceId) (f : WorkflowInstance → WorkflowInstance) :
    Act WorkflowStore WorkflowInstance :=
  .of fun s =>
    match s.instances.get? id with
    | some i => (.ok (f i), { s with instances := s.instances.insert id (f i) })
    | none => (.error (.noInstance id), s)

/-- Overlays the context of an instance and answers the whole of it. -/
def overlay (id : InstanceId) (updates : Context) : Act WorkflowStore Context := do
  let i ← modifyInstance id fun i => { i with globalContext := i.globalContext.merge updates }
  pure i.globalContext

def mark (id : InstanceId) (status : InstanceStatus) : Act WorkflowStore Unit := do
  let _ ← modifyInstance id fun i => { i with status := status }
  pure ()

/-! ### The calls -/

def getInstance (id : InstanceId) : Act WorkflowStore (Option WorkflowInstance) := do
  enter .getInstance
  instance? id

def getNode (id : NodeId) : Act WorkflowStore (Option WorkflowNode) := do
  enter .getNode
  node? id

def listNodes (id : InstanceId) : Act WorkflowStore (List WorkflowNode) := do
  enter .listNodes
  nodesOf id

def updateNode (n : WorkflowNode) : Act WorkflowStore Unit := do
  enter .updateNode
  putNode n

def mergeContext (id : InstanceId) (updates : Context) : Act WorkflowStore Context := do
  enter .mergeContext
  overlay id updates

def setInstanceStatus (id : InstanceId) (status : InstanceStatus) : Act WorkflowStore Unit := do
  enter .setInstanceStatus
  mark id status

end WorkflowStore

end Clearance
