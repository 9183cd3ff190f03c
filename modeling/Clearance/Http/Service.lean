import Clearance.Definition.Registry
import Clearance.Engine.Consumer
import Clearance.Engine.Creation
import Clearance.Http.Message
import Clearance.Http.Route

/-!
# Clearance — HTTP — The service

An engine with the definitions it can make instances of, and its HTTP interface.  Answering a request
and handling the notifications that it gave rise to are two steps: `answer` and `settle`.
-/

namespace Clearance

/-! ### Bodies -/

open Decoder

/-- The body of a request to activate a node. -/
structure ActivationBody where
  nodeId : NodeId
  instanceId : InstanceId
  templateId : TemplateId
  /-- Names a kind; it is read apart from the body, so that an unknown one is no fault of shape. -/
  kind : String
  config : Json
  globalContext : Context

def ActivationBody.decode : Decoder ActivationBody := fun src d => do
  let f ← record "InitTaskBody"
    [slot "nodeId" .required NodeId.decode, slot "instanceId" .required InstanceId.decode,
      slot "templateId" .required TemplateId.decode, slot "kind" .required string,
      slot "config" .defaulted value, slot "globalContext" .defaulted context] src d
  return {
    nodeId := ← f.get "nodeId" NodeId.decode
    instanceId := ← f.get "instanceId" InstanceId.decode
    templateId := ← f.get "templateId" TemplateId.decode
    kind := ← f.get "kind" string
    config := ← f.getD "config" value .null
    globalContext := ← f.getD "globalContext" context {} }

/-- The activation a body asks for. -/
def ActivationBody.activation (b : ActivationBody) : Except Failure Activation := do
  let kind ← TaskKind.parse b.kind
  pure ⟨b.nodeId, b.instanceId, b.templateId, kind, b.config, b.globalContext⟩

/-- The body of a request to make an instance. -/
structure CreationBody where
  definition : String
  kind : InstanceKind
  globalContext : Context

def CreationBody.decode : Decoder CreationBody := fun src d => do
  let f ← record "CreateInstanceBody"
    [slot "definition" .required string, slot "kind" .defaulted InstanceKind.decode,
      slot "globalContext" .defaulted context] src d
  return {
    definition := ← f.get "definition" string
    kind := ← f.getD "kind" InstanceKind.decode .consignment
    globalContext := ← f.getD "globalContext" context {} }

/-! ### The service -/

structure Service where
  engine : Engine
  definitions : Registry
  /-- How many notifications were handled. -/
  handled : Nat := 0

namespace Service

/-- A service with the given definitions, or else with those of a directory, if there is one. -/
def start (engine : Engine) (definitions : Option Registry) (directory : Option FileTree) :
    Except Failure Service :=
  match definitions, directory with
  | some ds, _ => .ok ⟨engine, ds, 0⟩
  | none, none => .ok ⟨engine, .empty, 0⟩
  | none, some tree =>
    match Registry.ofDirectory tree [] with
    | .ok ds => .ok ⟨engine, ds, 0⟩
    | .error e => .error (.invalidDefinition e)

/-- Makes an instance of the definition of a name. -/
def create (definitions : Registry) (name : String) (kind : InstanceKind) (globalContext : Context) :
    Act Engine Created := do
  match definitions.get? name with
  | none => throw (.noDefinition name)
  | some d => Engine.createInstance kind d globalContext

/-- The body of a request, or the failure that tells what is wrong with it. -/
def body {α : Type} (r : HttpRequest) (decode : Decoder α) : Act Engine α :=
  Act.lift ((r.decodeBody decode).mapError .badBody)

def postTask (r : HttpRequest) : Act Engine HttpResponse := do
  let b ← body r ActivationBody.decode
  let a ← Act.lift b.activation
  let _ ← Engine.onWorkshop (Workshop.init {} a)
  pure (.reply 201 (.ok (.obj [("nodeId", .str a.nodeId.text)])))

def postExecution (r : HttpRequest) (node : NodeId) : Act Engine HttpResponse := do
  let request ← body r ActionRequest.decode
  let response ← Engine.onWorkshop (Workshop.execute {} node request)
  pure (.reply 200 response.reply)

def getRendering (node : NodeId) : Act Engine HttpResponse := do
  let reply ← Engine.onWorkshop (Workshop.render {} node)
  pure (.reply 200 reply)

def postInstance (definitions : Registry) (r : HttpRequest) : Act Engine HttpResponse := do
  let b ← body r CreationBody.decode
  let created ← create definitions b.definition b.kind b.globalContext
  let state ← Engine.instanceState created.inst.id
  pure (.reply 201 (.ok state.toJson))

def getInstance (id : InstanceId) : Act Engine HttpResponse := do
  let state ← Engine.instanceState id
  pure (.reply 200 (.ok state.toJson))

def getMetrics : Act Engine HttpResponse := do
  pure ⟨200, .json (← get).workshop.metrics.toJson⟩

/-- Does what a route offers with the text of its parameter. -/
def withParameter (name segment : String) (f : String → Act Engine HttpResponse) :
    Act Engine HttpResponse :=
  match Route.parameter name segment with
  | .ok s => f s
  | .error p => pure ⟨400, .text p.message⟩

/-- What a request of a route does. -/
def serve (definitions : Registry) (r : HttpRequest) : Route → Act Engine HttpResponse
  | .tasks => postTask r
  | .taskExecution node => withParameter "node_id" node fun n => postExecution r ⟨n⟩
  | .taskRendering node => withParameter "node_id" node fun n => getRendering ⟨n⟩
  | .instances => postInstance definitions r
  | .oneInstance id => withParameter "id" id fun i => getInstance ⟨i⟩
  | .metrics => getMetrics

/-- Does something with the engine of a service. -/
def run {α : Type} (s : Service) (a : Act Engine α) : Except Failure α × Service :=
  let (r, e) := a.go s.engine
  (r, { s with engine := e })

/-- Answers a request. -/
def answer (s : Service) (r : HttpRequest) : HttpResponse × Service :=
  match Route.ofTarget? r.target with
  | none => (.empty 404, s)
  | some route =>
    if !route.answers r.method then (.empty 405, s)
    else
      let (result, s) := s.run (serve s.definitions r route)
      let response := match result with
        | .ok response => response
        | .error f => .ofFailure f
      (if r.method = "HEAD" then response.withoutBody else response, s)

/-- Handles the notifications that wait. -/
def settle (s : Service) : Service :=
  let (n, e) := s.engine.consume
  { s with engine := e, handled := s.handled + n }

end Service

end Clearance
