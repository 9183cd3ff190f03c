import Clearance.Definition.Wire
import Clearance.Mailbox
import Clearance.Proofs.Wire.Record
import Clearance.Workflow.Node

/-!
# Clearance — Proofs — Wire — What is stored is read back

* `Canonical`, for each of the records: the values of any shape in it are canonical.
* `restores`, for each of them: its decoder reads it back off its tree, whatever order the objects of
  the tree hold their fields in.  An owner says its kind before its id is looked at, wherever the two
  stand; a dependency is always written in its detailed form.
* `yields`, for each of the records with such values: whatever its decoder reads is canonical, so what
  was read once is read back whenever it is stored.
* `TemplateDependency.decode_shorthand`: the name of a template alone is that dependency as well.
-/

namespace Clearance

open Decoder

/-! ### Names -/

theorem NodeId.restores (id : NodeId) : Restores NodeId.decode (.str id.text) id := fun _ _ => rfl

theorem InstanceId.restores (id : InstanceId) : Restores InstanceId.decode (.str id.text) id :=
  fun _ _ => rfl

theorem TemplateId.restores (id : TemplateId) : Restores TemplateId.decode (.str id.text) id :=
  fun _ _ => rfl

theorem TaskKind.ofText?_text (k : TaskKind) : ofText? k.text = some k := by
  cases k <;> rfl

theorem TaskKind.restores (k : TaskKind) : Restores TaskKind.decode (.str k.text) k :=
  restores_oneOf _ k.ofText?_text

theorem Lifecycle.ofText?_text (l : Lifecycle) : ofText? l.text = some l := by
  cases l <;> rfl

theorem Lifecycle.restores (l : Lifecycle) : Restores Lifecycle.decode (.str l.text) l :=
  restores_oneOf _ l.ofText?_text

theorem NodeState.ofText?_text (s : NodeState) : ofText? s.text = some s := by
  cases s <;> rfl

theorem NodeState.restores (s : NodeState) : Restores NodeState.decode (.str s.text) s :=
  restores_oneOf _ s.ofText?_text

theorem InstanceKind.ofText?_text (k : InstanceKind) : ofText? k.text = some k := by
  cases k <;> rfl

theorem InstanceKind.restores (k : InstanceKind) : Restores InstanceKind.decode (.str k.text) k :=
  restores_oneOf _ k.ofText?_text

theorem InstanceStatus.ofText?_text (s : InstanceStatus) : ofText? s.text = some s := by
  cases s <;> rfl

theorem InstanceStatus.restores (s : InstanceStatus) :
    Restores InstanceStatus.decode (.str s.text) s :=
  restores_oneOf _ s.ofText?_text

theorem UnlockMode.ofText?_text (m : UnlockMode) : ofText? m.text = some m := by
  cases m <;> rfl

theorem UnlockMode.restores (m : UnlockMode) : Restores UnlockMode.decode (.str m.text) m :=
  restores_oneOf _ m.ofText?_text

/-! ### Definitions -/

namespace TemplateDependency

theorem restores (d : TemplateDependency) : Restores decode d.toJson d := by
  intro arrange harrange
  have htemplate := TemplateId.restores d.template
  have houtcome := restores_text? d.outcome
  have hfills : Fills [slot "template" .required TemplateId.decode,
      slot "outcome" .defaulted (optional string)] _ :=
    .cons htemplate <| .cons houtcome <| .rest (by decide)
  obtain ⟨f, hf, hsource, hlookup⟩ := hfills.record (by decide) harrange "TemplateDependency"
  have hdetailed : decodeDetailed .value (.ofJson (d.toJson.arranged arrange)) = .ok d := by
    rw [toJson, decodeDetailed, hf]
    simp [Fields.get, Fields.getD, hlookup, lookup_field, hsource, htemplate _ harrange,
      houtcome _ harrange]
  rw [toJson, Json.arranged, Document.ofJson] at hdetailed ⊢
  rw [decode, hdetailed]

/-- **The shorthand**: a template's name alone and the object with nothing but its name are the same
dependency. -/
theorem decode_shorthand (template : String) :
    decode.ofJson (.str template) = .ok ⟨⟨template⟩, none⟩ ∧
      decode.ofJson (.obj [("template", .str template)]) = .ok ⟨⟨template⟩, none⟩ :=
  ⟨rfl, rfl⟩

end TemplateDependency

namespace NodeTemplate

theorem restores {t : NodeTemplate} (h : t.config.Canonical) : Restores decode t.toJson t := by
  intro arrange harrange
  have hid := TemplateId.restores t.id
  have hname := restores_string t.name
  have hkind := TaskKind.restores t.kind
  have hconfig := restores_value h
  have hdependsOn := restores_list (l := t.dependsOn) fun d _ => TemplateDependency.restores d
  have hunlock := UnlockMode.restores t.unlock
  have hterminal := restores_boolean t.terminal
  have hfills : Fills slots _ :=
    .cons hid <| .cons hname <| .cons hkind <| .cons hconfig <| .cons hdependsOn <|
      .cons hunlock <| .cons hterminal <| .rest (by decide)
  obtain ⟨f, hf, hsource, hlookup⟩ := hfills.record (by decide) harrange "NodeTemplate"
  rw [toJson, decode, hf]
  simp [Fields.get, Fields.getD, hlookup, lookup_field, hsource, hid _ harrange, hname _ harrange,
    hkind _ harrange, hconfig _ harrange, hdependsOn _ harrange, hunlock _ harrange,
    hterminal _ harrange]

theorem yields : Yields decode fun t => t.config.Canonical := by
  intro src d t h
  simp only [decode, bind_eq_ok] at h
  obtain ⟨f, -, id, -, name, -, kind, -, config, hconfig, dependsOn, -, unlock, -, terminal, -,
    h⟩ := h
  cases h
  exact yields_value.of_getD .null hconfig

end NodeTemplate

namespace WorkflowDefinition

/-- The configurations of the templates are canonical. -/
def Canonical (d : WorkflowDefinition) : Prop := ∀ t ∈ d.templates, t.config.Canonical

theorem restores {d : WorkflowDefinition} (h : d.Canonical) : Restores decode d.toJson d := by
  intro arrange harrange
  have hname := restores_string d.name
  have hdescription := restores_text? d.description
  have htemplates := restores_list fun t ht => NodeTemplate.restores (h t ht)
  have hfills : Fills slots _ :=
    .cons hname <| .cons hdescription <| .cons htemplates <| .rest (by decide)
  obtain ⟨f, hf, hsource, hlookup⟩ := hfills.record (by decide) harrange "WorkflowDefinition"
  rw [toJson, decode, hf]
  simp [Fields.get, Fields.getD, hlookup, lookup_field, hsource, hname _ harrange,
    hdescription _ harrange, htemplates _ harrange]

theorem yields : Yields decode Canonical := by
  intro src d w h
  simp only [decode, bind_eq_ok] at h
  obtain ⟨f, -, name, -, description, -, templates, htemplates, h⟩ := h
  cases h
  exact NodeTemplate.yields.list.of_get htemplates

end WorkflowDefinition

/-! ### Task records -/

namespace TaskRecord

structure Canonical (r : TaskRecord) : Prop where
  config : r.config.Canonical
  globalContext : r.globalContext.Canonical
  localState : r.localState.Canonical

theorem restores {r : TaskRecord} (h : r.Canonical) : Restores decode r.toJson r := by
  intro arrange harrange
  have hid := NodeId.restores r.id
  have hinstance := InstanceId.restores r.instanceId
  have htemplate := TemplateId.restores r.templateId
  have hkind := TaskKind.restores r.kind
  have hstate := Lifecycle.restores r.state
  have hconfig := restores_value h.config
  have hglobal := Context.restores h.globalContext
  have hlocal := Context.restores h.localState
  have hplugin := restores_text? r.pluginState
  have hfills : Fills slots _ :=
    .cons hid <| .cons hinstance <| .cons htemplate <| .cons hkind <| .cons hstate <|
      .cons hconfig <| .cons hglobal <| .cons hlocal <| .cons hplugin <| .rest (by decide)
  obtain ⟨f, hf, hsource, hlookup⟩ := hfills.record (by decide) harrange "TaskRecord"
  rw [toJson, decode, hf]
  simp [Fields.get, Fields.getD, hlookup, lookup_field, hsource, hid _ harrange,
    hinstance _ harrange, htemplate _ harrange, hkind _ harrange, hstate _ harrange,
    hconfig _ harrange, hglobal _ harrange, hlocal _ harrange, hplugin _ harrange]

theorem yields : Yields decode Canonical := by
  intro src d r h
  simp only [decode, bind_eq_ok] at h
  obtain ⟨f, -, id, -, instanceId, -, templateId, -, kind, -, state, -, config, hconfig,
    globalContext, hglobal, localState, hlocal, pluginState, -, h⟩ := h
  cases h
  exact ⟨yields_value.of_get hconfig, yields_context.of_get hglobal, yields_context.of_get hlocal⟩

end TaskRecord

/-! ### Instances and nodes -/

theorem NodeOwner.restores (o : NodeOwner) : Restores decode o.toJson o := by
  intro arrange harrange
  have hkind := InstanceKind.restores o.kind
  have hid := InstanceId.restores o.instanceId
  have hfills : Fills [slot "kind" .required InstanceKind.decode, slot "id" .required value] _ :=
    .cons hkind <| .cons (restores_value (.str o.instanceId.text)) <| .rest (by decide)
  obtain ⟨docs, hdocs, hcheck, hlookup⟩ := hfills.checked (by decide) harrange
  rw [toJson, hdocs, decode]
  simp [inside, hcheck, Fields.get, hlookup, lookup_field, hkind _ harrange, hid _ harrange]

theorem ResolvedDependency.restores (d : ResolvedDependency) : Restores decode d.toJson d := by
  intro arrange harrange
  have hnode := NodeId.restores d.nodeId
  have htemplate := TemplateId.restores d.templateId
  have houtcome := restores_text? d.outcome
  have hfills : Fills [slot "nodeId" .required NodeId.decode,
      slot "templateId" .required TemplateId.decode,
      slot "outcome" .nullable (optional string)] _ :=
    .cons hnode <| .cons htemplate <| .cons houtcome <| .rest (by decide)
  obtain ⟨f, hf, hsource, hlookup⟩ := hfills.record (by decide) harrange "ResolvedDependency"
  rw [toJson, decode, hf]
  simp [Fields.get, Fields.getD, hlookup, lookup_field, hsource, hnode _ harrange,
    htemplate _ harrange, houtcome _ harrange]

theorem WorkflowNode.restores {n : WorkflowNode} (h : n.config.Canonical) :
    Restores decode n.toJson n := by
  intro arrange harrange
  have hid := NodeId.restores n.id
  have howner := NodeOwner.restores n.owner
  have htemplate := TemplateId.restores n.templateId
  have hname := restores_string n.name
  have hkind := TaskKind.restores n.kind
  have hconfig := restores_value h
  have hstate := NodeState.restores n.state
  have hextended := restores_text? n.extendedState
  have houtcome := restores_text? n.outcome
  have hdependencies := restores_list (l := n.dependencies) fun d _ => ResolvedDependency.restores d
  have hunlock := UnlockMode.restores n.unlockMode
  have hterminal := restores_boolean n.terminal
  have hfills : Fills slots _ :=
    .cons hid <| .cons howner <| .cons htemplate <| .cons hname <| .cons hkind <| .cons hconfig <|
      .cons hstate <| .cons hextended <| .cons houtcome <| .cons hdependencies <|
      .cons hunlock <| .cons hterminal <| .rest (by decide)
  obtain ⟨f, hf, hsource, hlookup⟩ := hfills.record (by decide) harrange "WorkflowNode"
  rw [toJson, decode, hf]
  simp [Fields.get, Fields.getD, hlookup, lookup_field, hsource, hid _ harrange, howner _ harrange,
    htemplate _ harrange, hname _ harrange, hkind _ harrange, hconfig _ harrange,
    hstate _ harrange, hextended _ harrange, houtcome _ harrange, hdependencies _ harrange,
    hunlock _ harrange, hterminal _ harrange]

theorem WorkflowNode.yields : Yields decode fun n => n.config.Canonical := by
  intro src d n h
  simp only [decode, bind_eq_ok] at h
  obtain ⟨f, -, id, -, owner, -, templateId, -, name, -, kind, -, config, hconfig, state, -,
    extendedState, -, outcome, -, dependencies, -, unlockMode, -, terminal, -, h⟩ := h
  cases h
  exact yields_value.of_get hconfig

theorem WorkflowInstance.restores {i : WorkflowInstance} (h : i.globalContext.Canonical) :
    Restores decode i.toJson i := by
  intro arrange harrange
  have hid := InstanceId.restores i.id
  have hkind := InstanceKind.restores i.kind
  have hdefinition := restores_string i.definition
  have hglobal := Context.restores h
  have hstatus := InstanceStatus.restores i.status
  have hfills : Fills slots _ :=
    .cons hid <| .cons hkind <| .cons hdefinition <| .cons hglobal <| .cons hstatus <|
      .rest (by decide)
  obtain ⟨f, hf, hsource, hlookup⟩ := hfills.record (by decide) harrange "WorkflowInstance"
  rw [toJson, decode, hf]
  simp [Fields.get, hlookup, lookup_field, hsource, hid _ harrange, hkind _ harrange,
    hdefinition _ harrange, hglobal _ harrange, hstatus _ harrange]

theorem WorkflowInstance.yields : Yields decode fun i => i.globalContext.Canonical := by
  intro src d i h
  simp only [decode, bind_eq_ok] at h
  obtain ⟨f, -, id, -, kind, -, definition, -, globalContext, hglobal, status, -, h⟩ := h
  cases h
  exact yields_context.of_get hglobal

/-! ### Notifications -/

theorem Notification.restores {n : Notification} (h : n.contextUpdates.Canonical) :
    Restores decode n.toJson n := by
  intro arrange harrange
  have hnode := NodeId.restores n.nodeId
  have hlifecycle := restores_text? n.lifecycle
  have hextended := restores_text? n.extendedState
  have houtcome := restores_text? n.outcome
  have hupdates := Context.restores h
  have hfills : Fills slots _ :=
    .cons hnode <| .cons hlifecycle <| .cons hextended <| .cons houtcome <| .cons hupdates <|
      .rest (by decide)
  obtain ⟨f, hf, hsource, hlookup⟩ := hfills.record (by decide) harrange "Notification"
  rw [toJson, decode, hf]
  simp [Fields.get, Fields.getD, hlookup, lookup_field, hsource, hnode _ harrange,
    hlifecycle _ harrange, hextended _ harrange, houtcome _ harrange, hupdates _ harrange]

theorem Notification.yields : Yields decode fun n => n.contextUpdates.Canonical := by
  intro src d n h
  simp only [decode, bind_eq_ok] at h
  obtain ⟨f, -, nodeId, -, lifecycle, -, extendedState, -, outcome, -, updates, hupdates, h⟩ := h
  cases h
  exact yields_context.of_getD Context.canonical_empty hupdates

end Clearance
