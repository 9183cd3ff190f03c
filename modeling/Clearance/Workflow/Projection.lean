import Clearance.Failure
import Clearance.Text.Upper
import Clearance.Workflow.Node

/-!
# Clearance — Workflow — Projection

How the text of a lifecycle becomes the state of a node, and when the dependencies of a node are
satisfied.
-/

namespace Clearance

/-- The state of a node whose task reports the lifecycle of this text. -/
def project (lifecycle : String) : Except Failure NodeState :=
  (Lifecycle.parse lifecycle).map NodeState.ofLifecycle

/-- Whether a prerequisite meets a dependency: it is completed, and where the dependency names an
outcome it has that outcome, up to the case of ASCII letters. -/
def ResolvedDependency.isMetBy (d : ResolvedDependency) (prerequisite : WorkflowNode) : Bool :=
  prerequisite.state == .completed &&
    match d.outcome, prerequisite.outcome with
    | none, _ => true
    | some wanted, some actual => Text.eqIgnoringAsciiCase wanted actual
    | some _, none => false

/-- Whether a dependency is met by the node that `lookup` finds for it. -/
def ResolvedDependency.isMet (lookup : NodeId → Option WorkflowNode) (d : ResolvedDependency) :
    Bool :=
  match lookup d.nodeId with
  | some prerequisite => d.isMetBy prerequisite
  | none => false

/-- Whether the dependencies of a node are satisfied in its unlock mode.  A node without dependencies
is satisfied in either. -/
def WorkflowNode.satisfied (n : WorkflowNode) (lookup : NodeId → Option WorkflowNode) : Bool :=
  n.dependencies.isEmpty ||
    match n.unlockMode with
    | .all => n.dependencies.all (·.isMet lookup)
    | .any => n.dependencies.any (·.isMet lookup)

/-- The first node of an id in a list. -/
def nodeIn (nodes : List WorkflowNode) (id : NodeId) : Option WorkflowNode :=
  nodes.find? (·.id == id)

end Clearance
