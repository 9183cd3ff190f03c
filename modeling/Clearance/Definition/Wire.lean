import Clearance.Definition.Basic
import Clearance.Wire.Names

/-!
# Clearance — Definition — Wire form

Definitions as JSON.  A dependency may be given by the name of its template alone.
-/

namespace Clearance

open Decoder

namespace TemplateDependency

def toJson (d : TemplateDependency) : Json :=
  .obj [("template", .str d.template.text), ("outcome", .ofText? d.outcome)]

/-- The detailed form, an object with the template and possibly an outcome. -/
def decodeDetailed : Decoder TemplateDependency := fun src d => do
  let f ← record "TemplateDependency"
    [slot "template" .required TemplateId.decode, slot "outcome" .defaulted (optional string)]
    src d
  return {
    template := ← f.get "template" TemplateId.decode
    outcome := ← f.getD "outcome" (optional string) none }

/-- The name of a template, or the detailed form; what is neither has no form. -/
def decode : Decoder TemplateDependency := fun src d =>
  match d with
  | .str s => .ok ⟨⟨s⟩, none⟩
  | .map _ _ =>
    match decodeDetailed src d with
    | .ok dep => .ok dep
    | .error _ => fail (.noForm "DependencySpec")
  | _ => fail (.noForm "DependencySpec")

end TemplateDependency

namespace NodeTemplate

def toJson (t : NodeTemplate) : Json :=
  .obj [
    ("id", .str t.id.text),
    ("name", .str t.name),
    ("kind", .str t.kind.text),
    ("config", t.config),
    ("depends_on", .arr (t.dependsOn.map TemplateDependency.toJson)),
    ("unlock", .str t.unlock.text),
    ("terminal", .bool t.terminal)]

def slots : List Slot := [
  slot "id" .required TemplateId.decode,
  slot "name" .defaulted string,
  slot "kind" .required TaskKind.decode,
  slot "config" .defaulted value,
  slot "depends_on" .defaulted (list TemplateDependency.decode),
  slot "unlock" .defaulted UnlockMode.decode,
  slot "terminal" .defaulted boolean]

def decode : Decoder NodeTemplate := fun src d => do
  let f ← record "NodeTemplate" slots src d
  return {
    id := ← f.get "id" TemplateId.decode
    name := ← f.getD "name" string ""
    kind := ← f.get "kind" TaskKind.decode
    config := ← f.getD "config" value .null
    dependsOn := ← f.getD "depends_on" (list TemplateDependency.decode) []
    unlock := ← f.getD "unlock" UnlockMode.decode .all
    terminal := ← f.getD "terminal" boolean false }

end NodeTemplate

namespace WorkflowDefinition

def toJson (d : WorkflowDefinition) : Json :=
  .obj [
    ("name", .str d.name),
    ("description", .ofText? d.description),
    ("templates", .arr (d.templates.map NodeTemplate.toJson))]

def slots : List Slot := [
  slot "name" .required string,
  slot "description" .defaulted (optional string),
  slot "templates" .required (list NodeTemplate.decode)]

def decode : Decoder WorkflowDefinition := fun src d => do
  let f ← record "WorkflowDefinition" slots src d
  return {
    name := ← f.get "name" string
    description := ← f.getD "description" (optional string) none
    templates := ← f.get "templates" (list NodeTemplate.decode) }

end WorkflowDefinition

end Clearance
