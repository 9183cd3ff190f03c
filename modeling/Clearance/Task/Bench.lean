import Clearance.Task.Agency
import Clearance.Task.Response
import Clearance.Task.Store

/-!
# Clearance — Task — The bench a plugin works at

A plugin sees one node through its `Handle`, and the task store and the agency behind it.  Every
change of a handle is written to the store first, so a write that fails leaves the handle as it was.
-/

namespace Clearance

/-- One node as its plugin sees it: who it is, and the copy of its record's state. -/
structure Handle where
  nodeId : NodeId
  instanceId : InstanceId
  templateId : TemplateId
  kind : TaskKind
  globalContext : Context
  state : Lifecycle
  localState : Context
  pluginState : Option String
  deriving DecidableEq, Inhabited

def Handle.ofRecord (r : TaskRecord) : Handle where
  nodeId := r.id
  instanceId := r.instanceId
  templateId := r.templateId
  kind := r.kind
  globalContext := r.globalContext
  state := r.state
  localState := r.localState
  pluginState := r.pluginState

structure Bench where
  handle : Handle
  /-- The form definition fetched for this plugin, once it has been. -/
  fetched : Option Json := none
  store : TaskStore
  agency : Agency := {}

instance : Inhabited Bench := ⟨{ handle := default, store := default }⟩

namespace Bench

/-- A call to the store. -/
def onStore {α : Type} (a : Act TaskStore α) : Act Bench α :=
  a.on Bench.store fun s b => { b with store := s }

/-- A call to an agency. -/
def onAgency {α : Type} (a : Act Agency α) : Act Bench α :=
  a.on Bench.agency fun s b => { b with agency := s }

/-- The handle as it is now. -/
def handleNow : Act Bench Handle := .of fun b => (.ok b.handle, b)

def setHandle (f : Handle → Handle) : Act Bench Unit :=
  .of fun b => (.ok (), { b with handle := f b.handle })

/-- Moves the task to a lifecycle, and its plugin state with it when one is given. -/
def move (next : Lifecycle) (pluginState : Option String) : Act Bench Unit := do
  let h ← handleNow
  if !h.state.canMoveTo next then throw (.illegalMove h.nodeId h.state next)
  onStore (TaskStore.updateState h.nodeId next pluginState)
  setHandle fun h => { h with state := next, pluginState := pluginState.or h.pluginState }

/-- Binds a key of the task's own data. -/
def setLocal (key : String) (value : Json) : Act Bench Unit := do
  let h ← handleNow
  let localState := h.localState.insert key value
  onStore (TaskStore.updateLocalState h.nodeId localState)
  setHandle fun h => { h with localState := localState }

def setPluginState (state : String) : Act Bench Unit := do
  let h ← handleNow
  onStore (TaskStore.updatePluginState h.nodeId state)
  setHandle fun h => { h with pluginState := some state }

/-- Carries out the move a response asks for, and answers the response. -/
def settle (r : Response) : Act Bench Response := do
  match r.newState with
  | none => pure r
  | some next =>
    move next r.extendedState
    pure r

/-- Starts a task by `logic`; a finished one is left alone. -/
def startBy (logic : Act Bench Response) : Act Bench Response := do
  let h ← handleNow
  if h.state.isTerminal then pure (.unchanged .done)
  else settle (← logic)

/-- Runs one action on a task by `logic`; a finished one refuses. -/
def executeBy (logic : Act Bench Response) : Act Bench Response := do
  let h ← handleNow
  if h.state.isTerminal then throw (.finished h.nodeId h.state)
  settle (← logic)

end Bench

/-- A read-only copy of a live task. -/
def Handle.snapshot (h : Handle) : Json :=
  .obj [
    ("nodeId", .str h.nodeId.text),
    ("instanceId", .str h.instanceId.text),
    ("templateId", .str h.templateId.text),
    ("kind", .str h.kind.text),
    ("state", .str h.state.text),
    ("pluginState", .ofText? h.pluginState),
    ("localState", h.localState.toJson)]

end Clearance
