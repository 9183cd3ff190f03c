/-!
# Clearance — Identities

The names of nodes, instances and templates.  Each is a text of its own type, so that one is never
taken for another; they are ordered as texts are, by code point.
-/

namespace Clearance

/-- Names one workflow node, and with it the task record of the node. -/
structure NodeId where
  text : String
  deriving DecidableEq, Repr, Inhabited

/-- Names one workflow instance. -/
structure InstanceId where
  text : String
  deriving DecidableEq, Repr, Inhabited

/-- Names one node template within a definition. -/
structure TemplateId where
  text : String
  deriving DecidableEq, Repr, Inhabited

/-- The id of the node that an instance makes of a template. -/
def InstanceId.node (i : InstanceId) (t : TemplateId) : NodeId := ⟨i.text ++ "-" ++ t.text⟩

/-- The id of the `n`-th instance that an engine makes. -/
def InstanceId.nth (n : Nat) : InstanceId := ⟨"$" ++ toString n⟩

end Clearance
