import Clearance.Definition.Order
import Clearance.Yaml.Core
import Clearance.Yaml.Writer
import Clearance.Definition.Wire

/-!
# Clearance — Definition — YAML

Definitions as YAML.  Where a definition wants a text, a scalar is taken as it is written; only within
a dependency are scalars typed first, so a number names no template there.  A definition that is read
is also checked.
-/

namespace Clearance

open Yaml

namespace Yaml.Tree

/-- A constant by its name, given as a scalar or as the tag of an empty one. -/
def constant {α : Type} (t : Tree) (ofText? : String → Option α) (n : Node) : Load α := do
  match ← t.resolve n with
  | .scalar text style tag =>
    let name :=
      match tag.filter (·.startsWith "!") with
      | some tag =>
        if style = ScalarStyle.plain ∧ (text = "" ∨ Core.isNullWord text) then some (tag.drop 1).toString
        else none
      | none => some text
    match name.bind ofText? with
    | some a => pure a
    | none => failure
  | _ => failure

def boolean (t : Tree) (n : Node) : Load Bool := do
  match ← t.resolve n with
  | .scalar text style tag =>
    if style = .plain ∨ (style = .literal ∧ tag = some "tag:yaml.org,2002:bool") then
      match Core.boolWord? text with
      | some b => pure b
      | none => failure
    else failure
  | _ => failure

/-- A text that may be null. -/
def optionalString (t : Tree) (n : Node) : Load (Option String) := do
  match ← t.resolve n with
  | .scalar text .plain none =>
    if text = "" ∨ Core.isNullWord text then pure none else pure (some text)
  | .scalar text .plain (some "tag:yaml.org,2002:null") =>
    if Core.isNullWord text then pure none else failure
  | .scalar text _ _ => pure (some text)
  | _ => failure

/-- What a scalar stands for. -/
def core (t : Tree) (n : Node) : Load Core := do
  match ← t.resolve n with
  | .scalar text style tag =>
    match Core.ofScalar? text style tag with
    | some c => pure c
    | none => failure
  | _ => failure

/-- The name of a field of a dependency, which may be given by the field's number. -/
def dependencyField (t : Tree) (n : Node) : Load String := do
  match ← t.core n with
  | .text name => pure name
  | .int 0 => pure "template"
  | .int 1 => pure "outcome"
  | .int n => if 0 ≤ n ∧ n < Nat.pow 2 64 then pure "" else failure
  | _ => failure

/-- A dependency: the name of its template, or an object with the template and possibly an
outcome. -/
def dependency (t : Tree) (depth : Nat) (n : Node) : Load TemplateDependency := do
  let _ ← t.json depth n
  match ← t.resolve n with
  | .scalar _ _ _ =>
    match ← t.core n with
    | .text name => pure ⟨⟨name⟩, none⟩
    | _ => failure
  | .map entries _ =>
    let named ← entries.mapM fun e => do
      let k ← t.dependencyField e.1
      pure (k, e.2)
    let only (name : String) : Load (Option Node) :=
      match (named.filter fun e => e.1 == name).map Prod.snd with
      | [] => pure none
      | [n] => pure (some n)
      | _ => failure
    let template ← match ← only "template" with
      | none => failure
      | some n => t.core n
    let outcome ← match ← only "outcome" with
      | none => pure .null
      | some n => t.core n
    match template, outcome with
    | .text name, .null => pure ⟨⟨name⟩, none⟩
    | .text name, .text outcome => pure ⟨⟨name⟩, some outcome⟩
    | _, _ => failure
  | _ => failure

/-- A field that has to be there. -/
def needed {α : Type} (fields : List (String × Node)) (name : String) (load : Node → Load α) :
    Load α :=
  match fields.lookup name with
  | some n => load n
  | none => failure

/-- A field that may be left out. -/
def optionalField {α : Type} (fields : List (String × Node)) (name : String) (default : α)
    (load : Node → Load α) : Load α :=
  match fields.lookup name with
  | some n => load n
  | none => pure default

def nodeTemplate (t : Tree) (depth : Nat) (n : Node) : Load NodeTemplate := do
  let fs ← t.fields (NodeTemplate.slots.map (·.name)) n
  return {
    id := ⟨← needed fs "id" t.string⟩
    name := ← optionalField fs "name" "" t.string
    kind := ← needed fs "kind" (t.constant TaskKind.ofText?)
    config := ← optionalField fs "config" .null (t.json (depth - 1))
    dependsOn := ← optionalField fs "depends_on" [] fun n => do
      (← t.items n).mapM (t.dependency (depth - 2))
    unlock := ← optionalField fs "unlock" .all (t.constant UnlockMode.ofText?)
    terminal := ← optionalField fs "terminal" false t.boolean }

def definition (t : Tree) (depth : Nat) (n : Node) : Load WorkflowDefinition := do
  let fs ← t.fields (WorkflowDefinition.slots.map (·.name)) n
  return {
    name := ← needed fs "name" t.string
    description := ← optionalField fs "description" none t.optionalString
    templates := ← needed fs "templates" fun n => do
      (← t.items n).mapM (t.nodeTemplate (depth - 2)) }

end Yaml.Tree

namespace WorkflowDefinition

/-- The definition a YAML text holds, whether valid or not. -/
def ofYaml? (s : String) : Option WorkflowDefinition := do
  let t ← Tree.ofText? s
  let (d, _) ← (t.definition Yaml.maxDepth t.root).run t.aliasLimit
  some d

/-- Reads and checks a definition. -/
def ofYaml (s : String) : Except DefinitionError WorkflowDefinition :=
  match ofYaml? s with
  | none => .error .unreadableText
  | some d => d.validate.map fun _ => d

def toYaml (d : WorkflowDefinition) : String := Yaml.document d.toJson

end WorkflowDefinition

end Clearance
