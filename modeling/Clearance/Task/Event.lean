import Clearance.Task.Form

/-!
# Clearance — Task — Events

The waiting task: it tells a service that it waits, if it has the address of one, and completes when
its event is delivered.
-/

namespace Clearance

structure EventConfig where
  /-- The event that completes the task. -/
  event : String
  /-- The service told that the task waits. -/
  notifyUrl : Option String
  /-- The key of the workflow's context to publish the event's data under. -/
  contextKey : Option String
  deriving DecidableEq, Inhabited

namespace EventState

def waiting : String := "WAITING"

def received : String := "EVENT_RECEIVED"

def failed : String := "EVENT_FAILED"

end EventState

namespace EventConfig

open Decoder in
def decode : Decoder EventConfig := fun src d => do
  let f ← record "WaitForEventConfig"
    [slot "event" .required string, slot "notifyUrl" .defaulted (optional string),
      slot "contextKey" .defaulted (optional string)] src d
  return {
    event := ← f.get "event" string
    notifyUrl := ← f.getD "notifyUrl" (optional string) none
    contextKey := ← f.getD "contextKey" (optional string) none }

/-- The configuration of a waiting task, which has to name its event. -/
def parse (config : Json) : Except Failure EventConfig :=
  match decode.ofJson config with
  | .error e => .error (.badConfig .waitForEvent e)
  | .ok c => if Text.isBlankText c.event then .error .blankEvent else .ok c

open Bench

/-- Tells the service, if there is one, that the task waits, and keeps its reply. -/
def announce (c : EventConfig) (ctx : CallContext) : Act Bench Unit := do
  match c.notifyUrl with
  | none => pure ()
  | some url =>
    let h ← handleNow
    let reply ← onAgency
      (Agency.submit ctx url (.obj [("event", .str c.event)]) h.nodeId h.instanceId)
    setLocal "notifyResponse" reply

/-- Starts to wait.  A plugin state that was kept means that the service was told before. -/
def start (c : EventConfig) (ctx : CallContext) : Act Bench Response := do
  let h ← handleNow
  if h.state ≠ .initialized then pure (.unchanged .done)
  else
    if h.pluginState.isNone then
      c.announce ctx
      setPluginState EventState.waiting
    pure (.moving .inProgress EventState.waiting)

/-- What the delivery of the event comes to. -/
def receivedResponse (c : EventConfig) (event : String) (content : Json) : Response :=
  { Response.moving .completed EventState.received with
    outcome := ((content.get? "outcome").bind Json.str?).map Text.upper
    contextUpdates := match c.contextKey, content.get? "data" with
      | some key, some data => Context.empty.insert key data
      | _, _ => {}
    reply := .ok (.obj [("event", .str event)]) }

/-- Takes the event the task waits for. -/
def receive (c : EventConfig) (content : Json) : Act Bench Response := do
  let content ← Act.lift (objectContent content)
  let event := ((content.get? "event").bind Json.str?).getD ""
  if event ≠ c.event then throw (.wrongEvent c.event event)
  setLocal "event" content
  pure (c.receivedResponse event content)

/-- Takes the news that the event will not come. -/
def giveUp (content : Json) : Act Bench Response := do
  setLocal "failure" content
  pure (.moving .failed EventState.failed)

def actions : List String := ["event_received", "event_failed"]

def execute (c : EventConfig) (r : ActionRequest) : Act Bench Response :=
  match r.action with
  | "event_received" => c.receive r.content
  | "event_failed" => giveUp r.content
  | other => throw (.unsupportedAction other .waitForEvent)

/-- What a caller sees of the wait. -/
def render (c : EventConfig) : Act Bench Reply := do
  let h ← handleNow
  pure (.ok (.obj [
    ("type", .str TaskKind.waitForEvent.text),
    ("taskId", .str h.nodeId.text),
    ("event", .str c.event),
    ("state", .str h.state.text),
    ("pluginState", .ofText? h.pluginState),
    ("lastEvent", .ofOption id (h.localState.get? "event"))]))

end EventConfig

end Clearance
