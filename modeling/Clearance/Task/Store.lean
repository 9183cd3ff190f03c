import Clearance.Act
import Clearance.Faults
import Clearance.Table
import Clearance.Task.Record

/-!
# Clearance — Task — Store

The store of task records.  Every call may fail before it does anything: by the store's plan of
faults, or because the store is not available.  A call that fails writes nothing.
-/

namespace Clearance

/-- The calls to a task store. -/
inductive TaskStore.Method where
  | create
  | get
  | updateState
  | updateLocalState
  | updatePluginState
  deriving DecidableEq, Repr

def TaskStore.Method.all : List TaskStore.Method :=
  [.create, .get, .updateState, .updateLocalState, .updatePluginState]

def TaskStore.Method.text : TaskStore.Method → String
  | .create => "create"
  | .get => "get"
  | .updateState => "update_state"
  | .updateLocalState => "update_local_state"
  | .updatePluginState => "update_plugin_state"

def TaskStore.Method.ofText? (s : String) : Option TaskStore.Method := all.find? (·.text == s)

structure TaskStore where
  records : Table NodeId TaskRecord := .empty
  available : Bool := true
  faults : Faults TaskStore.Method := .none
  /-- How many calls were made. -/
  calls : Nat := 0

instance : Inhabited TaskStore := ⟨{}⟩

namespace TaskStore

/-- Starts a call, which may end it. -/
def enter (m : Method) : Act TaskStore Unit :=
  .of fun s =>
    (if s.faults s.calls m then .error (.storeFault m.text)
      else if s.available then .ok ()
      else .error .storeUnavailable,
      { s with calls := s.calls + 1 })

/-- Fails while the store is not available. -/
def reach : Act TaskStore Unit :=
  .of fun s => (if s.available then .ok () else .error .storeUnavailable, s)

/-- Adds a record. -/
def add (r : TaskRecord) : Act TaskStore Unit :=
  .of fun s =>
    if s.records.contains r.id then (.error (.recordExists r.id), s)
    else (.ok (), { s with records := s.records.insert r.id r })

/-- The record of a node, if there is one. -/
def look (id : NodeId) : Act TaskStore (Option TaskRecord) := .of fun s => (.ok (s.records.get? id), s)

/-- The record of a node, which has to be there. -/
def fetch (id : NodeId) : Act TaskStore TaskRecord :=
  .of fun s =>
    match s.records.get? id with
    | some r => (.ok r, s)
    | none => (.error (.noRecord id), s)

/-- Changes the record of a node, which has to be there. -/
def modify (id : NodeId) (f : TaskRecord → TaskRecord) : Act TaskStore Unit :=
  .of fun s =>
    match s.records.get? id with
    | some r => (.ok (), { s with records := s.records.insert id (f r) })
    | none => (.error (.noRecord id), s)

def create (r : TaskRecord) : Act TaskStore Unit := do
  enter .create
  add r

def get (id : NodeId) : Act TaskStore (Option TaskRecord) := do
  enter .get
  look id

/-- Writes a lifecycle and, if given, the state of the plugin with it. -/
def updateState (id : NodeId) (state : Lifecycle) (pluginState : Option String) :
    Act TaskStore Unit := do
  enter .updateState
  modify id fun r => { r with state := state, pluginState := pluginState.or r.pluginState }

def updateLocalState (id : NodeId) (localState : Context) : Act TaskStore Unit := do
  enter .updateLocalState
  modify id fun r => { r with localState := localState }

def updatePluginState (id : NodeId) (pluginState : String) : Act TaskStore Unit := do
  enter .updatePluginState
  modify id fun r => { r with pluginState := some pluginState }

end TaskStore

end Clearance
