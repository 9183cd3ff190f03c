import Clearance.Task.Event

/-!
# Clearance — Task — Plugins and containers

A plugin is the logic behind one node, built from a kind and a configuration alone.  A container is a
plugin at work on a node: the plugin with the handle of the node and what it fetched.
-/

namespace Clearance

inductive Plugin where
  | form (config : FormConfig)
  | event (config : EventConfig)
  deriving DecidableEq, Inhabited

namespace Plugin

/-- Builds the plugin of a kind; this only reads its configuration. -/
def build (kind : TaskKind) (config : Json) : Except Failure Plugin :=
  match kind with
  | .simpleForm => (FormConfig.parse config).map .form
  | .waitForEvent => (EventConfig.parse config).map .event

def kind : Plugin → TaskKind
  | .form _ => .simpleForm
  | .event _ => .waitForEvent

def start (ctx : CallContext) : Plugin → Act Bench Response
  | .form _ => FormConfig.start
  | .event c => c.start ctx

def execute (ctx : CallContext) (r : ActionRequest) : Plugin → Act Bench Response
  | .form c => c.execute ctx r
  | .event c => c.execute r

def render (ctx : CallContext) : Plugin → Act Bench Reply
  | .form c => c.render ctx
  | .event c => c.render

/-- The actions a plugin knows. -/
def actions : Plugin → List String
  | .form _ => FormConfig.actions
  | .event _ => EventConfig.actions

/-- How a plugin that was not bound to a node refuses an action. -/
def refusal (p : Plugin) (r : ActionRequest) : Failure :=
  if p.actions.contains r.action then .unboundPlugin else .unsupportedAction r.action p.kind

end Plugin

structure Container where
  handle : Handle
  plugin : Plugin
  fetched : Option Json := none
  deriving DecidableEq, Inhabited

namespace Container

/-- The container of a record, with a newly built plugin. -/
def ofRecord (r : TaskRecord) (p : Plugin) : Container := ⟨.ofRecord r, p, none⟩

/-- The bench the container's plugin works at. -/
def bench (c : Container) (store : TaskStore) (agency : Agency) : Bench :=
  ⟨c.handle, c.fetched, store, agency⟩

/-- The container as its plugin leaves it. -/
def after (c : Container) (b : Bench) : Container :=
  { c with handle := b.handle, fetched := b.fetched }

end Container

end Clearance
