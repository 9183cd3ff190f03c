import Clearance.Failure
import Clearance.Mailbox

/-!
# Clearance — Task — Responses

What a caller asks of a node, and what comes back: the body for the caller, and beside it what the
operation changes.  A response with a new state gives rise to exactly one notification.
-/

namespace Clearance

open Decoder

/-- An action requested of a node. -/
structure ActionRequest where
  action : String
  content : Json
  deriving DecidableEq, Inhabited

namespace ActionRequest

def toJson (r : ActionRequest) : Json := .obj [("action", .str r.action), ("content", r.content)]

def decode : Decoder ActionRequest := fun src d => do
  let f ← record "ExecutionRequest"
    [slot "action" .required string, slot "content" .defaulted value] src d
  return {
    action := ← f.get "action" string
    content := ← f.getD "content" value .null }

end ActionRequest

structure ReplyError where
  code : String
  message : String
  deriving DecidableEq, Repr

namespace ReplyError

def toJson (e : ReplyError) : Json := .obj [("code", .str e.code), ("message", .str e.message)]

def decode : Decoder ReplyError := fun src d => do
  let f ← record "ApiError" [slot "code" .required string, slot "message" .required string] src d
  return { code := ← f.get "code" string, message := ← f.get "message" string }

end ReplyError

/-- The uniform body returned to callers. -/
structure Reply where
  success : Bool
  data : Option Json
  error : Option ReplyError
  deriving DecidableEq, Inhabited

namespace Reply

def ok (data : Json) : Reply := ⟨true, some data, none⟩

/-- Success with nothing to say. -/
def done : Reply := ⟨true, none, none⟩

def ofFailure (e : Failure) : Reply := ⟨false, none, some ⟨e.code, e.message⟩⟩

def toJson (r : Reply) : Json :=
  .obj ([("success", Json.bool r.success)] ++
    (match r.data with | some d => [("data", d)] | none => []) ++
    (match r.error with | some e => [("error", e.toJson)] | none => []))

def decode : Decoder Reply := fun src d => do
  let f ← record "ApiResponse"
    [slot "success" .required boolean, slot "data" .nullable (optional value),
      slot "error" .nullable (optional ReplyError.decode)] src d
  return {
    success := ← f.get "success" boolean
    data := ← f.getD "data" (optional value) none
    error := ← f.getD "error" (optional ReplyError.decode) none }

end Reply

/-- The result of a start or of an action. -/
structure Response where
  /-- The lifecycle to move to, if any. -/
  newState : Option Lifecycle := none
  /-- How far the plugin is within its lifecycle. -/
  extendedState : Option String := none
  /-- What a completion came to. -/
  outcome : Option String := none
  /-- Entries for the context of the workflow. -/
  contextUpdates : Context := {}
  reply : Reply := .done
  deriving DecidableEq, Inhabited

namespace Response

/-- Leaves the lifecycle as it is. -/
def unchanged (reply : Reply) : Response := { reply := reply }

/-- Moves to a lifecycle. -/
def moving (state : Lifecycle) (extendedState : String) : Response :=
  { newState := some state, extendedState := some extendedState }

def toJson (r : Response) : Json :=
  .obj [
    ("newState", .ofOption (fun s : Lifecycle => .str s.text) r.newState),
    ("extendedState", .ofText? r.extendedState),
    ("outcome", .ofText? r.outcome),
    ("contextUpdates", r.contextUpdates.toJson),
    ("apiResponse", r.reply.toJson)]

/-- The notification of a response, if it moves the node. -/
def notification? (id : NodeId) (r : Response) : Option Notification :=
  r.newState.map fun s => ⟨id, some s.text, r.extendedState, r.outcome, r.contextUpdates⟩

end Response

end Clearance
