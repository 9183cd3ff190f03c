import Clearance.Ids
import Clearance.States
import Clearance.Json.Value
import Clearance.Text.Quoted

/-!
# Clearance — Definition — Workflow definitions

A workflow definition is a list of node templates; a template names the templates it depends on,
each possibly with the outcome it has to have.
-/

namespace Clearance

/-- An edge to a prerequisite template, with the outcome it has to have, if any. -/
structure TemplateDependency where
  template : TemplateId
  outcome : Option String
  deriving DecidableEq, Repr, Inhabited

structure NodeTemplate where
  id : TemplateId
  name : String
  kind : TaskKind
  /-- What the plugin of the task is told. -/
  config : Json
  dependsOn : List TemplateDependency
  unlock : UnlockMode
  /-- Completing the node completes the workflow. -/
  terminal : Bool
  deriving DecidableEq, Repr, Inhabited

namespace NodeTemplate

/-- A template named by its id, with an empty configuration and without dependencies. -/
def ofKind (id : TemplateId) (kind : TaskKind) : NodeTemplate :=
  ⟨id, id.text, kind, .obj [], [], .all, false⟩

/-- Adds a dependency on the completion of a template, with an outcome if one is given. -/
def after (t : NodeTemplate) (template : TemplateId) (outcome : Option String) : NodeTemplate :=
  { t with dependsOn := t.dependsOn ++ [⟨template, outcome⟩] }

end NodeTemplate

structure WorkflowDefinition where
  name : String
  description : Option String
  templates : List NodeTemplate
  deriving DecidableEq, Repr, Inhabited

namespace WorkflowDefinition

/-- The first template with an id. -/
def template? (d : WorkflowDefinition) (id : TemplateId) : Option NodeTemplate :=
  d.templates.find? (·.id == id)

/-- Templates without dependencies, which start ready. -/
def roots (d : WorkflowDefinition) : List NodeTemplate := d.templates.filter (·.dependsOn.isEmpty)

def ids (d : WorkflowDefinition) : List TemplateId := d.templates.map (·.id)

end WorkflowDefinition

/-- Why a definition cannot be used. -/
inductive DefinitionError where
  | noTemplates (name : String)
  | repeatedTemplate (id : TemplateId)
  | unknownDependency (template dependency : TemplateId)
  | cycle (members : List TemplateId)
  | severalTerminals (members : List TemplateId)
  /-- The file or directory cannot be read. -/
  | unreadableFile (reason : String) (code : Nat)
  /-- The text is no YAML, or no definition. -/
  | unreadableText
  deriving DecidableEq, Repr

namespace DefinitionError

/-- A list of template ids as a message shows it. -/
def idsText (ids : List TemplateId) : String :=
  "[" ++ String.intercalate ", " (ids.map fun t => "TemplateId(" ++ Text.quoted t.text ++ ")") ++ "]"

def message : DefinitionError → String
  | .noTemplates name => "Workflow definition '" ++ name ++ "' has no templates"
  | .repeatedTemplate id => "Duplicate template id: " ++ id.text
  | .unknownDependency t d => "Template " ++ t.text ++ " depends on unknown template " ++ d.text
  | .cycle ids => "Cycle detected involving templates: " ++ idsText ids
  | .severalTerminals ids => "More than one terminal template: " ++ idsText ids
  | .unreadableFile reason code =>
    "I/O error: " ++ reason ++ " (os error " ++ toString code ++ ")"
  | .unreadableText => "YAML parsing error"

end DefinitionError

end Clearance
