import Clearance.Definition.Basic

/-!
# Clearance — Definition — Dependency order

Checks a definition and orders its templates, every dependency before its dependents.

The order comes from a depth-first walk along the edges from a template to its dependents, the most
recently declared edge first.  A template is finished once everything behind it is, and the order
lists the last finished first.  `explore` keeps the walk's stack as a list: the top of the stack is
discovered when it is first met, and finished and dropped when it is met again.

A template is on a cycle when a walk that starts at its dependents comes to it.
-/

namespace Clearance

namespace WorkflowDefinition

/-- The templates that depend directly on `id`, once for each edge, the latest edge first. -/
def dependents (d : WorkflowDefinition) (id : TemplateId) : List TemplateId :=
  (d.templates.flatMap fun t => (t.dependsOn.filter (·.template == id)).map fun _ => t.id).reverse

/-! ### The walk -/

/-- What a walk has still to discover, and what it has finished, the last finished first. -/
structure Walk where
  undiscovered : List TemplateId
  finished : List TemplateId
  deriving DecidableEq, Repr

/-- Walks on until the stack is empty. -/
def explore (next : TemplateId → List TemplateId) (w : Walk) (stack : List TemplateId) : Walk :=
  match stack with
  | [] => w
  | top :: rest =>
    if top ∈ w.undiscovered then
      let left := w.undiscovered.erase top
      let ahead := (next top).filter (left.contains ·)
      explore next { w with undiscovered := left } (ahead.reverse ++ top :: rest)
    else if top ∈ w.finished then explore next w rest
    else explore next { w with finished := top :: w.finished } rest
termination_by (w.undiscovered.length, stack.length)
decreasing_by
  · rename_i h
    apply Prod.Lex.left
    simp only [List.length_erase_of_mem h]
    exact Nat.sub_lt (List.length_pos_of_mem h) Nat.one_pos
  · exact Prod.Lex.right _ (by simp)
  · exact Prod.Lex.right _ (by simp)

/-- All templates in dependency order, if no template is on a cycle. -/
def dependencyOrder (d : WorkflowDefinition) : List TemplateId :=
  (d.ids.foldl
    (fun w id => if id ∈ w.undiscovered then explore d.dependents w [id] else w)
    ⟨d.ids, []⟩).finished

/-! ### Cycles -/

/-- The templates reached from `id` along one or more edges. -/
def reachable (d : WorkflowDefinition) (id : TemplateId) : List TemplateId :=
  (explore d.dependents ⟨d.ids, []⟩ (d.dependents id)).finished

/-- The templates on some cycle, in ascending order. -/
def cycleMembers (d : WorkflowDefinition) : List TemplateId :=
  (d.ids.filter fun id => (d.reachable id).contains id).mergeSort
    (fun a b => decide (a.text ≤ b.text))

/-! ### Validation -/

/-- The first id that occurs a second time. -/
def repeated? (seen : List TemplateId) : List TemplateId → Option TemplateId
  | [] => none
  | id :: rest => if id ∈ seen then some id else repeated? (id :: seen) rest

/-- The first dependency that names no template, with the template it stands in. -/
def unknown? (d : WorkflowDefinition) : Option (TemplateId × TemplateId) :=
  d.templates.findSome? fun t =>
    (t.dependsOn.find? fun dep => !d.ids.contains dep.template).map fun dep => (t.id, dep.template)

/-- Checks the definition and answers its templates in dependency order. -/
def validate (d : WorkflowDefinition) : Except DefinitionError (List TemplateId) :=
  if d.templates.isEmpty then .error (.noTemplates d.name)
  else
    match repeated? [] d.ids with
    | some id => .error (.repeatedTemplate id)
    | none =>
      match d.unknown? with
      | some (t, dep) => .error (.unknownDependency t dep)
      | none =>
        if !d.cycleMembers.isEmpty then .error (.cycle d.cycleMembers)
        else
          let terminals := (d.templates.filter (·.terminal)).map (·.id)
          if 1 < terminals.length then .error (.severalTerminals terminals)
          else .ok d.dependencyOrder

end WorkflowDefinition

end Clearance
