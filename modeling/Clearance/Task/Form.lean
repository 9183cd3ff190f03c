import Clearance.Task.Bench
import Clearance.Text.Blank
import Clearance.Text.Upper

/-!
# Clearance — Task — Forms

The form task: it collects a submission, forwards it to an agency if it has an address for that, and
either completes at once or waits for the agency's review.
-/

namespace Clearance

structure FormConfig where
  formId : String
  title : Option String
  /-- The form itself. -/
  schema : Option Json
  /-- Where to fetch the form when it is not given here. -/
  formUrl : Option String
  /-- The agency that receives the submission. -/
  submissionUrl : Option String
  /-- Whether a submission waits for a review. -/
  requiresReview : Bool
  /-- The key of the workflow's context to publish the submission under. -/
  contextKey : Option String
  deriving DecidableEq, Inhabited

namespace FormConfig

open Decoder in
def decode : Decoder FormConfig := fun src d => do
  let f ← record "SimpleFormConfig"
    [slot "formId" .required string, slot "title" .defaulted (optional string),
      slot "schema" .defaulted (optional value), slot "formUrl" .defaulted (optional string),
      slot "submissionUrl" .defaulted (optional string),
      slot "requiresReview" .defaulted boolean, slot "contextKey" .defaulted (optional string)] src d
  return {
    formId := ← f.get "formId" string
    title := ← f.getD "title" (optional string) none
    schema := ← f.getD "schema" (optional value) none
    formUrl := ← f.getD "formUrl" (optional string) none
    submissionUrl := ← f.getD "submissionUrl" (optional string) none
    requiresReview := ← f.getD "requiresReview" boolean false
    contextKey := ← f.getD "contextKey" (optional string) none }

/-- The configuration of a form task, which has to name its form. -/
def parse (config : Json) : Except Failure FormConfig :=
  match decode.ofJson config with
  | .error e => .error (.badConfig .simpleForm e)
  | .ok c => if Text.isBlankText c.formId then .error .blankFormId else .ok c

end FormConfig

/-- The content of a request as an object; none counts as an empty one. -/
def objectContent (content : Json) : Except Failure Json :=
  match content with
  | .null => .ok (.obj [])
  | .obj fields => .ok (.obj fields)
  | other => .error (.contentNotObject other)

/-! ### Progress of a form -/

namespace FormState

def awaitingInput : String := "AWAITING_INPUT"

def awaitingReview : String := "AWAITING_REVIEW"

def submitted : String := "SUBMITTED"

def reviewed : String := "REVIEWED"

end FormState

namespace FormConfig

open Bench

/-- Opens the form, if it was not opened before. -/
def start : Act Bench Response := do
  let h ← handleNow
  if h.state = .initialized then pure (.moving .inProgress FormState.awaitingInput)
  else pure (.unchanged .done)

def saveDraft (content : Json) : Act Bench Response := do
  let draft ← Act.lift (objectContent content)
  setLocal "draft" draft
  pure (.unchanged (.ok (.obj [("saved", .bool true)])))

/-- Forwards a submission to the agency, if there is one, and keeps its reply. -/
def forward (c : FormConfig) (ctx : CallContext) (data : Json) : Act Bench (Option Json) := do
  match c.submissionUrl with
  | none => pure none
  | some url =>
    let h ← handleNow
    let reply ← onAgency (Agency.submit ctx url data h.nodeId h.instanceId)
    setLocal "submissionResponse" reply
    pure (some reply)

/-- What a submission comes to. -/
def submissionResponse (c : FormConfig) (data : Json) (reply : Option Json) : Response :=
  { (if c.requiresReview then Response.moving .inProgress FormState.awaitingReview
      else Response.moving .completed FormState.submitted) with
    contextUpdates := match c.contextKey with
      | some key => Context.empty.insert key data
      | none => {}
    reply := .ok (.obj [
      ("submitted", .bool true), ("submissionResponse", .ofOption id reply)]) }

/-- Takes a submission.  The agency is called first, so that a call that fails leaves no trace. -/
def submit (c : FormConfig) (ctx : CallContext) (content : Json) : Act Bench Response := do
  let h ← handleNow
  if h.pluginState = some FormState.awaitingReview ∨ h.pluginState = some FormState.submitted then
    throw (.alreadySubmitted c.formId)
  let data ← Act.lift (objectContent content)
  let reply ← c.forward ctx data
  setLocal "submission" data
  pure (c.submissionResponse data reply)

/-- The decision of a review: a text that is not blank, in upper case. -/
def decision? (content : Json) : Option String := do
  let text ← (← content.get? "decision").str?
  let decision := Text.trim text
  if decision = "" then none else some (Text.upper decision)

/-- Takes the decision of the agency on a submission that awaits it. -/
def completeReview (c : FormConfig) (content : Json) : Act Bench Response := do
  let h ← handleNow
  if h.pluginState ≠ some FormState.awaitingReview then throw (.notAwaitingReview c.formId)
  match decision? content with
  | none => throw .noDecision
  | some decision =>
    setLocal "review" content
    pure { Response.moving .completed FormState.reviewed with
      outcome := some decision
      reply := .ok (.obj [("decision", .str decision)]) }

def actions : List String := ["save_draft", "submit", "review_complete"]

def execute (c : FormConfig) (ctx : CallContext) (r : ActionRequest) : Act Bench Response :=
  match r.action with
  | "save_draft" => saveDraft r.content
  | "submit" => c.submit ctx r.content
  | "review_complete" => c.completeReview r.content
  | other => throw (.unsupportedAction other .simpleForm)

/-- The form: given, or fetched once and kept. -/
def form (c : FormConfig) (ctx : CallContext) : Act Bench (Option Json) := do
  match c.schema, c.formUrl with
  | some schema, _ => pure (some schema)
  | none, none => pure none
  | none, some url =>
    match (← get).fetched with
    | some form => pure (some form)
    | none =>
      let form ← onAgency (Agency.fetch ctx url)
      modify fun b => { b with fetched := some form }
      pure (some form)

/-- What a caller sees of the form. -/
def render (c : FormConfig) (ctx : CallContext) : Act Bench Reply := do
  let schema ← c.form ctx
  let h ← handleNow
  let stored (key : String) : Json := .ofOption id (h.localState.get? key)
  pure (.ok (.obj [
    ("type", .str TaskKind.simpleForm.text),
    ("taskId", .str h.nodeId.text),
    ("formId", .str c.formId),
    ("title", .ofText? c.title),
    ("schema", .ofOption id schema),
    ("state", .str h.state.text),
    ("pluginState", .ofText? h.pluginState),
    ("draft", stored "draft"),
    ("submission", stored "submission"),
    ("submissionResponse", stored "submissionResponse"),
    ("review", stored "review")]))

end FormConfig

end Clearance
