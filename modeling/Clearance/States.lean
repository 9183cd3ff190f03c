/-!
# Clearance — States

The closed vocabularies of the engine: kinds of tasks and instances, lifecycles of tasks, states of
nodes and statuses of instances, each with its wire text.  `Lifecycle.canMoveTo` and
`NodeState.canAdvanceTo` say which changes are legal, and `NodeState.ofLifecycle` how the state of a
node follows the lifecycle of its task.
-/

namespace Clearance

/-! ### Kinds of tasks -/

inductive TaskKind where
  /-- A form to submit, possibly reviewed by an agency. -/
  | simpleForm
  /-- A wait for an event from outside. -/
  | waitForEvent
  deriving DecidableEq, Repr, Inhabited

namespace TaskKind

def all : List TaskKind := [.simpleForm, .waitForEvent]

def text : TaskKind → String
  | .simpleForm => "SIMPLE_FORM"
  | .waitForEvent => "WAIT_FOR_EVENT"

def ofText? (s : String) : Option TaskKind := all.find? (·.text == s)

end TaskKind

/-! ### Lifecycles of tasks -/

inductive Lifecycle where
  | initialized
  | inProgress
  | completed
  | failed
  deriving DecidableEq, Repr, Inhabited

namespace Lifecycle

def all : List Lifecycle := [.initialized, .inProgress, .completed, .failed]

def text : Lifecycle → String
  | .initialized => "INITIALIZED"
  | .inProgress => "IN_PROGRESS"
  | .completed => "COMPLETED"
  | .failed => "FAILED"

def ofText? (s : String) : Option Lifecycle := all.find? (·.text == s)

def isTerminal : Lifecycle → Bool
  | .completed | .failed => true
  | _ => false

/-- Whether a task may move to `next`: never out of a terminal state and never back to the start,
while a task in progress may report progress again. -/
def canMoveTo : Lifecycle → Lifecycle → Bool
  | .completed, _ | .failed, _ => false
  | _, .initialized => false
  | _, _ => true

end Lifecycle

/-! ### States of nodes -/

inductive NodeState where
  | locked
  | ready
  | inProgress
  | completed
  | failed
  deriving DecidableEq, Repr, Inhabited

namespace NodeState

def all : List NodeState := [.locked, .ready, .inProgress, .completed, .failed]

def text : NodeState → String
  | .locked => "LOCKED"
  | .ready => "READY"
  | .inProgress => "IN_PROGRESS"
  | .completed => "COMPLETED"
  | .failed => "FAILED"

def ofText? (s : String) : Option NodeState := all.find? (·.text == s)

def isTerminal : NodeState → Bool
  | .completed | .failed => true
  | _ => false

/-- Whether a node may advance to `next`.  A locked node only becomes ready; a ready one and one in
progress move on or stay. -/
def canAdvanceTo : NodeState → NodeState → Bool
  | .locked, .ready => true
  | .ready, .ready | .ready, .inProgress | .ready, .completed | .ready, .failed => true
  | .inProgress, .inProgress | .inProgress, .completed | .inProgress, .failed => true
  | _, _ => false

/-- The state of a node whose task has the given lifecycle. -/
def ofLifecycle : Lifecycle → NodeState
  | .initialized => .ready
  | .inProgress => .inProgress
  | .completed => .completed
  | .failed => .failed

end NodeState

/-! ### Instances -/

/-- The two kinds of owners of workflow nodes. -/
inductive InstanceKind where
  | consignment
  | preConsignment
  deriving DecidableEq, Repr, Inhabited

namespace InstanceKind

def all : List InstanceKind := [.consignment, .preConsignment]

def text : InstanceKind → String
  | .consignment => "CONSIGNMENT"
  | .preConsignment => "PRE_CONSIGNMENT"

def ofText? (s : String) : Option InstanceKind := all.find? (·.text == s)

end InstanceKind

inductive InstanceStatus where
  | active
  | completed
  | failed
  deriving DecidableEq, Repr, Inhabited

namespace InstanceStatus

def all : List InstanceStatus := [.active, .completed, .failed]

def text : InstanceStatus → String
  | .active => "ACTIVE"
  | .completed => "COMPLETED"
  | .failed => "FAILED"

def ofText? (s : String) : Option InstanceStatus := all.find? (·.text == s)

end InstanceStatus

/-- How a node with several dependencies decides that it may unlock. -/
inductive UnlockMode where
  /-- Every dependency has to be satisfied. -/
  | all
  /-- One satisfied dependency is enough. -/
  | any
  deriving DecidableEq, Repr, Inhabited

namespace UnlockMode

def modes : List UnlockMode := [.all, .any]

def text : UnlockMode → String
  | .all => "all"
  | .any => "any"

def ofText? (s : String) : Option UnlockMode := modes.find? (·.text == s)

end UnlockMode

end Clearance
