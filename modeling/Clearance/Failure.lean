import Clearance.Definition.Basic
import Clearance.Wire.Decoder

/-!
# Clearance — Failures

Everything that can go wrong in the engine, by its cause.  A cause belongs to a category, which
decides its code and its HTTP status, and has one message.
-/

namespace Clearance

inductive Category where
  | validation
  | notFound
  | construction
  | execution
  | persistence
  | unrecognizedState
  | cancelled
  | serialization
  deriving DecidableEq, Repr, Inhabited

namespace Category

def code : Category → String
  | .validation => "VALIDATION_ERROR"
  | .notFound => "NOT_FOUND"
  | .construction => "CONSTRUCTION_ERROR"
  | .execution => "EXECUTION_ERROR"
  | .persistence => "PERSISTENCE_ERROR"
  | .unrecognizedState => "UNRECOGNIZED_STATE"
  | .cancelled => "CANCELLED"
  | .serialization => "SERIALIZATION_ERROR"

/-- What a message of the category starts with. -/
def title : Category → String
  | .validation => "Validation error"
  | .notFound => "Not found"
  | .construction => "Construction error"
  | .execution => "Execution error"
  | .persistence => "Persistence error"
  | .unrecognizedState => "Unrecognized state"
  | .cancelled => "Cancelled"
  | .serialization => "JSON error"

/-- The status a failure of the category has as an HTTP response. -/
def httpStatus : Category → Nat
  | .validation => 400
  | .notFound => 404
  | .construction => 422
  | .execution => 502
  | .persistence => 503
  | .unrecognizedState => 500
  | .cancelled => 408
  | .serialization => 500

end Category

/-- What is wrong with the body of a request. -/
inductive BodyProblem where
  /-- The content type is not one of JSON. -/
  | notDeclaredJson
  | notJson
  | wrongShape (e : DecodeError)
  deriving DecidableEq, Repr

namespace BodyProblem

def message : BodyProblem → String
  | .notDeclaredJson => "Expected request with `Content-Type: application/json`"
  | .notJson => "Failed to parse the request body as JSON"
  | .wrongShape e =>
    "Failed to deserialize the JSON body into the target type: " ++ e.locatedMessage

end BodyProblem

inductive Failure where
  -- validation
  | recordExists (id : NodeId)
  | instanceExists (id : InstanceId)
  | nodeExists (id : NodeId)
  | finished (id : NodeId) (state : Lifecycle)
  | cannotAdvance (id : NodeId) (present next : NodeState)
  | ownerMismatch (id : InstanceId) (kind ownerKind : InstanceKind)
  | emptyIds
  | emptyAction
  | unsupportedAction (action : String) (kind : TaskKind)
  | contentNotObject (content : Json)
  | alreadySubmitted (form : String)
  | notAwaitingReview (form : String)
  | noDecision
  | wrongEvent (wanted got : String)
  | invalidDefinition (e : DefinitionError)
  | badBody (p : BodyProblem)
  -- not found
  | noNode (id : NodeId)
  | noRecord (id : NodeId)
  | noInstance (id : InstanceId)
  | noDefinition (name : String)
  -- construction
  | unknownKind (text : String)
  | badConfig (kind : TaskKind) (e : DecodeError)
  | blankFormId
  | blankEvent
  -- execution
  | illegalMove (id : NodeId) (present next : Lifecycle)
  | unboundPlugin
  | callFailed (url reason : String)
  | callTimedOut (url limit : String)
  | callRejected (url status : String)
  | callUnreadable (url : String)
  -- persistence
  | storeUnavailable
  | storeFault (method : String)
  -- the other categories
  | unknownLifecycle (text : String)
  | callCancelled (url : String)
  | badValue (e : DecodeError)
  /-- A failure in the words of whoever reports it. -/
  | reported (category : Category) (text : String)
  deriving DecidableEq, Repr

namespace Failure

def category : Failure → Category
  | .recordExists _ | .instanceExists _ | .nodeExists _ | .finished _ _ | .cannotAdvance _ _ _
  | .ownerMismatch _ _ _ | .emptyIds | .emptyAction | .unsupportedAction _ _ | .contentNotObject _
  | .alreadySubmitted _ | .notAwaitingReview _ | .noDecision | .wrongEvent _ _
  | .invalidDefinition _ | .badBody _ => .validation
  | .noNode _ | .noRecord _ | .noInstance _ | .noDefinition _ => .notFound
  | .unknownKind _ | .badConfig _ _ | .blankFormId | .blankEvent => .construction
  | .illegalMove _ _ _ | .unboundPlugin | .callFailed _ _ | .callTimedOut _ _ | .callRejected _ _
  | .callUnreadable _ => .execution
  | .storeUnavailable | .storeFault _ => .persistence
  | .unknownLifecycle _ => .unrecognizedState
  | .callCancelled _ => .cancelled
  | .badValue _ => .serialization
  | .reported c _ => c

/-- The message without the title of its category. -/
def detail : Failure → String
  | .recordExists id => "task record " ++ id.text ++ " already exists"
  | .instanceExists id => "instance " ++ id.text ++ " already exists"
  | .nodeExists id => "node " ++ id.text ++ " already exists"
  | .finished id state => "node " ++ id.text ++ " is already " ++ state.text
  | .cannotAdvance id a b => "node " ++ id.text ++ " cannot move from " ++ a.text ++ " to " ++ b.text
  | .ownerMismatch id a b =>
    "instance " ++ id.text ++ " is a " ++ a.text ++ " but node owner says " ++ b.text
  | .emptyIds => "init requires a node id and an instance id"
  | .emptyAction => "action must not be empty"
  | .unsupportedAction action kind => "unsupported action '" ++ action ++ "' for " ++ kind.text
  | .contentNotObject content => "content must be a JSON object, got " ++ content.text
  | .alreadySubmitted form => "form " ++ form ++ " was already submitted"
  | .notAwaitingReview form => "form " ++ form ++ " is not awaiting review"
  | .noDecision => "review requires a decision"
  | .wrongEvent wanted got => "expected event '" ++ wanted ++ "', got '" ++ got ++ "'"
  | .invalidDefinition e => e.message
  | .badBody p => p.message
  | .noNode id => "node " ++ id.text
  | .noRecord id => "task record " ++ id.text
  | .noInstance id => "instance " ++ id.text
  | .noDefinition name => "workflow definition '" ++ name ++ "'"
  | .unknownKind text => "unknown task kind '" ++ text ++ "'"
  | .badConfig kind e => "invalid " ++ kind.text ++ " config: " ++ e.message
  | .blankFormId => "SIMPLE_FORM config requires a non-empty formId"
  | .blankEvent => "WAIT_FOR_EVENT config requires a non-empty event"
  | .illegalMove id a b =>
    "illegal transition " ++ a.text ++ " -> " ++ b.text ++ " for node " ++ id.text
  | .unboundPlugin => "plugin used before init"
  | .callFailed url reason => "call to " ++ url ++ " failed: " ++ reason
  | .callTimedOut url limit => "call to " ++ url ++ " timed out after " ++ limit
  | .callRejected url status => url ++ " responded with " ++ status
  | .callUnreadable url => "invalid JSON from " ++ url
  | .storeUnavailable => "task store unavailable"
  | .storeFault method => "injected " ++ method
  | .unknownLifecycle text => text
  | .callCancelled url => "call to " ++ url ++ " cancelled"
  | .badValue e => e.message
  | .reported _ text => text

def code (f : Failure) : String := f.category.code

def message (f : Failure) : String := f.category.title ++ ": " ++ f.detail

end Failure

/-- The task kind a text names. -/
def TaskKind.parse (s : String) : Except Failure TaskKind :=
  match ofText? s with
  | some k => .ok k
  | none => .error (.unknownKind s)

/-- The lifecycle a text names. -/
def Lifecycle.parse (s : String) : Except Failure Lifecycle :=
  match ofText? s with
  | some l => .ok l
  | none => .error (.unknownLifecycle s)

end Clearance
