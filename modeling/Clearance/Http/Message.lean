import Clearance.Http.MediaType
import Clearance.Json.Reader
import Clearance.Task.Response

/-!
# Clearance — HTTP — Messages

Requests as far as the service looks at them, and responses.
-/

namespace Clearance

structure HttpRequest where
  method : String
  /-- The path, possibly with a query behind it. -/
  target : String
  contentType : Option String
  body : String
  deriving DecidableEq, Repr

inductive HttpBody where
  | empty
  | text (s : String)
  | json (j : Json)
  deriving DecidableEq

structure HttpResponse where
  status : Nat
  body : HttpBody
  deriving DecidableEq

namespace HttpRequest

/-- Whether the request declares its body to be JSON. -/
def declaresJson (r : HttpRequest) : Bool :=
  match r.contentType.bind MediaType.parse? with
  | some m => m.isJson
  | none => false

/-- The value of a body that starts with the JSON of one; what follows it does not matter. -/
def decodeBody {α : Type} (r : HttpRequest) (decode : Decoder α) : Except BodyProblem α :=
  if !r.declaresJson then .error .notDeclaredJson
  else
    match decode (.text Json.maxDepth) (Json.read r.body).document with
    | .ok a => .ok a
    | .error ⟨_, .unreadable⟩ => .error .notJson
    | .error e => .error (.wrongShape e)

end HttpRequest

namespace HttpBody

/-- The body as a value: none is `null`. -/
def toJson : HttpBody → Json
  | .empty => .null
  | .text s => .str s
  | .json j => j

end HttpBody

namespace HttpResponse

def toJson (r : HttpResponse) : Json := .obj [("status", .int r.status), ("body", r.body.toJson)]

def empty (status : Nat) : HttpResponse := ⟨status, .empty⟩

def reply (status : Nat) (r : Reply) : HttpResponse := ⟨status, .json r.toJson⟩

/-- The response to a request that failed. -/
def ofFailure (f : Failure) : HttpResponse := reply f.category.httpStatus (.ofFailure f)

/-- The response to a request whose method asks for no body. -/
def withoutBody (r : HttpResponse) : HttpResponse := { r with body := .empty }

end HttpResponse

end Clearance
