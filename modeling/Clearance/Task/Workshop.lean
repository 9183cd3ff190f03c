import Clearance.Cache.Containers
import Clearance.Mailbox
import Clearance.Task.Plugin
import Clearance.Text.Blank

/-!
# Clearance — Task — The workshop

The task layer: its store, the cache of live containers, the outside, and the sending end of the
mailbox.  Each operation acquires the container of its node, from the cache, from the node's record,
or, to activate a node, from scratch.  The plugin then works at its bench, and a response that moves
the node is announced by one notification.

Operations come one at a time, so nobody but the cache holds a container between them.
-/

namespace Clearance

structure Workshop where
  store : TaskStore
  cache : ContainerCache Container
  mailbox : Mailbox
  metrics : Metrics := {}
  agency : Agency := {}
  /-- How plugins are built. -/
  build : TaskKind → Json → Except Failure Plugin := Plugin.build

namespace Workshop

/-- A workshop without tasks. -/
def ofCapacity (containers notifications : Nat) : Workshop where
  store := {}
  cache := .ofCapacity containers
  mailbox := .ofCapacity notifications

instance : Inhabited Workshop := ⟨ofCapacity Lru.defaultCapacity 1⟩

/-- A call to the task store. -/
def onStore {α : Type} (a : Act TaskStore α) : Act Workshop α :=
  a.on Workshop.store fun s w => { w with store := s }

def count (k : MetricKind) : Act Workshop Unit :=
  .of fun w => (.ok (), { w with metrics := w.metrics.record k })

/-! ### Containers -/

/-- Looks up the container of a node and counts the access. -/
def lookUp (id : NodeId) : Act Workshop (Option Container) :=
  .of fun w =>
    match w.cache.find (fun _ => false) id with
    | (.cached c, cache) | (.evicted c, cache) =>
      (.ok (some c), { w with cache := cache, metrics := w.metrics.recordAccess true })
    | (.absent, cache) =>
      (.ok none, { w with cache := cache, metrics := w.metrics.recordAccess false })

/-- Caches a new container and counts an eviction. -/
def cacheNew (c : Container) : Act Workshop Unit :=
  .of fun w =>
    let (went, cache) := w.cache.insert (fun _ => false) c.handle.nodeId c
    (.ok (), { w with
      cache := cache
      metrics := if went then w.metrics.record .cacheEviction else w.metrics })

/-- The container of a node: the cached one, or a new one of `make`. -/
def acquire (id : NodeId) (make : Act Workshop Container) : Act Workshop Container := do
  match ← lookUp id with
  | some c => pure c
  | none =>
    let c ← make
    cacheNew c
    pure c

/-- Builds a plugin and counts the attempt. -/
def buildPlugin (kind : TaskKind) (config : Json) : Act Workshop Plugin :=
  .of fun w => (w.build kind config, { w with metrics := w.metrics.record .pluginBuild })

/-- The container of a task that has a record. -/
def rebuild (r : TaskRecord) : Act Workshop Container := do
  pure (.ofRecord r (← buildPlugin r.kind r.config))

/-- The container of a node to activate: rebuilt if the node has a record, else new, with a record
that is stored once the plugin is built. -/
def create (a : Activation) : Act Workshop Container := do
  match ← onStore (TaskStore.get a.nodeId) with
  | some r => rebuild r
  | none =>
    let p ← buildPlugin a.kind a.config
    onStore (TaskStore.create a.record)
    pure (.ofRecord a.record p)

/-- The container of a node that was activated before. -/
def resolve (id : NodeId) : Act Workshop Container :=
  acquire id do
    match ← onStore (TaskStore.get id) with
    | some r => rebuild r
    | none => throw (.noNode id)

/-- Lets a container's plugin work at its bench, and keeps the container as the plugin leaves it. -/
def work {α : Type} (c : Container) (job : Act Bench α) : Act Workshop α :=
  .of fun w =>
    let (r, b) := job.go (c.bench w.store w.agency)
    (r, { w with
      store := b.store
      agency := b.agency
      cache := w.cache.keep c.handle.nodeId (c.after b) })

/-! ### Notifications -/

/-- Sends a notification, counts it as sent or as dropped, and answers which. -/
def send (n : Notification) : Act Workshop Bool :=
  .of fun w =>
    let (sent, mailbox) := w.mailbox.send n
    (.ok sent, { w with
      mailbox := mailbox
      metrics := w.metrics.record (if sent then .notificationSent else .notificationDropped) })

/-- Announces a response that moves its node.  Whether the notification is dropped does not matter to
the caller. -/
def announce (id : NodeId) (r : Response) : Act Workshop Response := do
  match r.notification? id with
  | none => pure r
  | some n =>
    let _ ← send n
    pure r

/-! ### Operations -/

/-- Activates a node and starts its task.  A node that is active already is only started again. -/
def init (ctx : CallContext) (a : Activation) : Act Workshop Response := do
  if a.nodeId.text = "" ∨ a.instanceId.text = "" then throw .emptyIds
  let c ← acquire a.nodeId (create a)
  announce c.handle.nodeId (← work c (Bench.startBy (c.plugin.start ctx)))

/-- Runs one action on a node. -/
def execute (ctx : CallContext) (id : NodeId) (r : ActionRequest) : Act Workshop Response := do
  if Text.isBlankText r.action then throw .emptyAction
  let c ← resolve id
  announce c.handle.nodeId (← work c (Bench.executeBy (c.plugin.execute ctx r)))

/-- What a caller sees of a node. -/
def render (ctx : CallContext) (id : NodeId) : Act Workshop Reply := do
  let c ← resolve id
  work c (c.plugin.render ctx)

/-- A read-only copy of the live task of a node. -/
def snapshot (id : NodeId) : Act Workshop Handle := do
  let c ← resolve id
  pure c.handle

/-- Whether a container of the node is cached. -/
def isLive (w : Workshop) (id : NodeId) : Bool := w.cache.contains id

def liveCount (w : Workshop) : Nat := w.cache.size

end Workshop

end Clearance
