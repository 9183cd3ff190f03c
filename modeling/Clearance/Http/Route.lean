import Clearance.Text.Percent

/-!
# Clearance — HTTP — Routes

What the service offers, by the path of a request.  A path parameter is one segment of the path, as it
was sent; its escapes are undone only when the request is answered.
-/

namespace Clearance

inductive Route where
  | tasks
  | taskExecution (node : String)
  | taskRendering (node : String)
  | instances
  | oneInstance (id : String)
  | metrics
  deriving DecidableEq, Repr

/-- A path parameter that is no text. -/
structure BadParameter where
  name : String
  deriving DecidableEq, Repr

def BadParameter.message (p : BadParameter) : String :=
  "Invalid URL: Invalid UTF-8 in `" ++ p.name ++ "`"

namespace Route

/-- The path of a target, without its query. -/
def pathOf (target : String) : String :=
  String.ofList (target.toList.takeWhile fun c => c != '?' && c != '#')

/-- The route of a target.  A node may have an empty name, an instance may not. -/
def ofTarget? (target : String) : Option Route :=
  match (pathOf target).splitOn "/" with
  | ["", "api", "v1", "tasks"] => some .tasks
  | ["", "api", "v1", "tasks", node, "execute"] => some (.taskExecution node)
  | ["", "api", "v1", "tasks", node, "render"] => some (.taskRendering node)
  | ["", "api", "v1", "instances"] => some .instances
  | ["", "api", "v1", "instances", id] => if id = "" then none else some (.oneInstance id)
  | ["", "api", "v1", "metrics"] => some .metrics
  | _ => none

/-- The method a route is asked with. -/
def method : Route → String
  | .tasks | .taskExecution _ | .instances => "POST"
  | .taskRendering _ | .oneInstance _ | .metrics => "GET"

/-- Whether a route answers a method; one that answers `GET` answers `HEAD` as well. -/
def answers (r : Route) (method : String) : Bool :=
  r.method == method || (r.method == "GET" && method == "HEAD")

/-- The text of a path parameter. -/
def parameter (name segment : String) : Except BadParameter String :=
  match Text.unescape? segment with
  | some s => .ok s
  | none => .error ⟨name⟩

end Route

end Clearance
