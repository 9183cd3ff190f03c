import Clearance.Definition.Yaml
import Clearance.Proofs.Wire.RoundTrip
import Clearance.Proofs.Yaml.Canonical
import Clearance.Proofs.Yaml.Faithful

/-!
# Clearance — Proofs — Definition — Definitions written as YAML and read again

* `Yaml.Tree.definition_of_shows`: a definition is loaded from a node that stands for its tree.
* `WorkflowDefinition.ofYaml_toYaml`: to read a definition's text is to check the definition.
* `stored_forms_round_trip`: definitions, task records, instances, nodes and notifications are read
  back from their trees, and valid definitions from their texts.
* `WorkflowDefinition.canonical_of_ofYaml?`: a definition that was loaded is canonical.
* `read_forms_round_trip`: whatever was read once, off a tree or a text, is read back.
-/

namespace Clearance

open Decoder (RoundTrips Yields)

namespace Yaml.Tree

variable {t : Tree} {depth : Nat} {n : Node}

/-! ### Parts of a definition -/

theorem constant_of_shows {α : Type} {ofText? : String → Option α} {a : α} {name : String}
    (h : n.shows depth (.str name)) (ha : ofText? name = some a) :
    t.constant ofText? n = pure a := by
  obtain ⟨style, rfl, -⟩ := Node.of_shows_str h
  simp only [constant, resolve, pure_bind, Option.filter_none, Option.bind_some, ha]

theorem boolean_of_shows {b : Bool} (h : n.shows depth (.bool b)) : t.boolean n = pure b := by
  obtain ⟨text, style, rfl, hscalar, -⟩ := Node.of_shows_scalar h rfl
  obtain ⟨rfl, hword⟩ := Core.ofScalar?_eq_bool hscalar
  simp only [boolean, resolve, pure_bind, true_or, if_true, hword]

theorem optionalString_of_shows {s : Option String} (h : n.shows depth (.ofText? s)) :
    t.optionalString n = pure s := by
  cases s with
  | none =>
      obtain ⟨text, style, rfl, hscalar, -⟩ := Node.of_shows_scalar h rfl
      obtain ⟨rfl, hnull⟩ := Core.ofScalar?_eq_null hscalar
      simp only [optionalString, resolve, pure_bind, if_pos hnull]
  | some s =>
      obtain ⟨style, rfl, hscalar⟩ := Node.of_shows_str h
      obtain ⟨-, hplain⟩ := Core.ofScalar?_eq_text hscalar
      cases style with
      | plain => simp only [optionalString, resolve, pure_bind, if_neg (hplain rfl)]
      | quoted | literal | folded => rfl

theorem core_of_shows {j : Json} {c : Core} (h : n.shows depth j)
    (hc : Core.ofJson? j = some c) : t.core n = pure c := by
  obtain ⟨text, style, rfl, hscalar, -⟩ := Node.of_shows_scalar h hc
  simp only [core, resolve, pure_bind, hscalar]

theorem needed_of_shows {α : Type} {fields : List (String × Json)} {named : List (String × Node)}
    (h : ShowFields depth fields named) {key : String} {j : Json} (hj : fields.lookup key = some j)
    {load : Node → Load α} {a : α} (hload : ∀ m : Node, m.shows depth j → load m = pure a) :
    needed named key load = pure a := by
  obtain ⟨m, hm, hshows⟩ := h.lookup hj
  simp only [needed, hm, hload m hshows]

theorem optionalField_of_shows {α : Type} {fields : List (String × Json)}
    {named : List (String × Node)} (h : ShowFields depth fields named) {key : String} {j : Json}
    (hj : fields.lookup key = some j) (default : α) {load : Node → Load α} {a : α}
    (hload : ∀ m : Node, m.shows depth j → load m = pure a) :
    optionalField named key default load = pure a := by
  obtain ⟨m, hm, hshows⟩ := h.lookup hj
  simp only [optionalField, hm, hload m hshows]

/-- A list is loaded from a node that stands for it, when its items are. -/
theorem list_of_shows {α : Type} {toJson : α → Json} {l : List α} {load : Node → Load α}
    (h : n.shows depth (.arr (l.map toJson)))
    (hload : ∀ d, depth = d + 1 → ∀ a ∈ l, ∀ m : Node, m.shows d (toJson a) → load m = pure a) :
    (do (← t.items n).mapM load) = pure l := by
  obtain ⟨d, nodes, hdepth, rfl, hitems⟩ := Node.of_shows_arr h
  rw [List.forall₂_map_left_iff] at hitems
  simp only [items, resolve, pure_bind]
  exact mapM_eq_pure <| ((List.forall₂_and_left l nodes).mpr ⟨fun _ ha => ha, hitems⟩).imp
    fun a m h => hload d hdepth a h.1 m h.2

/-! ### Dependencies -/

theorem dependencyField_of_shows {name : String} (h : n.shows depth (.str name)) :
    t.dependencyField n = pure name := by
  simp only [dependencyField, core_of_shows h rfl, pure_bind]

/-- A dependency is loaded from the detailed form, which is the one it is written in. -/
theorem dependency_of_shows {d : TemplateDependency} (h : n.shows depth d.toJson) :
    t.dependency depth n = pure d := by
  obtain ⟨v, hv, -⟩ := json_of_shows (t := t) _ h
  obtain ⟨k, entries, rfl, rfl, hentries⟩ := Node.of_shows_obj h
  obtain _ | @⟨_, ⟨ktemplate, template⟩, _, _, ⟨hktemplate, htemplate⟩, hrest⟩ := hentries
  obtain _ | @⟨_, ⟨koutcome, outcome⟩, _, _, ⟨hkoutcome, houtcome⟩, hrest⟩ := hrest
  cases hrest
  rw [dependency, hv]
  obtain ⟨⟨name⟩, _ | needed⟩ := d
  · simp [resolve, dependencyField_of_shows hktemplate, dependencyField_of_shows hkoutcome,
      core_of_shows htemplate (c := .text name) rfl, core_of_shows houtcome (c := .null) rfl]
  · simp [resolve, dependencyField_of_shows hktemplate, dependencyField_of_shows hkoutcome,
      core_of_shows htemplate (c := .text name) rfl, core_of_shows houtcome (c := .text needed) rfl]

/-- **The shorthand**: a template's name alone and an object with nothing but its name are loaded as
the same dependency. -/
theorem dependency_shorthand {m : Node} {template : String} (h : n.shows depth (.str template))
    (hm : m.shows depth (.obj [("template", .str template)])) :
    t.dependency depth n = pure ⟨⟨template⟩, none⟩ ∧
      t.dependency depth m = pure ⟨⟨template⟩, none⟩ := by
  constructor
  · have hjson := json_of_shows_scalar (t := t) h rfl
    have hcore := core_of_shows (t := t) h rfl
    obtain ⟨style, rfl, -⟩ := Node.of_shows_str h
    rw [dependency, hjson]
    simp only [pure_bind, resolve, hcore]
  · obtain ⟨v, hv, -⟩ := json_of_shows (t := t) _ hm
    obtain ⟨k, entries, rfl, rfl, hentries⟩ := Node.of_shows_obj hm
    obtain _ | @⟨_, ⟨key, value⟩, _, _, ⟨hkey, hvalue⟩, hrest⟩ := hentries
    cases hrest
    rw [dependency, hv]
    simp [resolve, dependencyField_of_shows hkey, core_of_shows hvalue (c := .text template) rfl]

/-! ### Templates -/

theorem nodeTemplate_of_shows {d : NodeTemplate} (hd : d.config.Canonical)
    (h : n.shows depth d.toJson) : t.nodeTemplate depth n = pure d := by
  obtain ⟨k, named, rfl, hfields, hnamed⟩ := exists_fields (t := t)
    (NodeTemplate.slots.map (·.name)) h rfl (by decide)
  have hid : needed named "id" t.string = pure d.id.text :=
    needed_of_shows hnamed rfl fun _ => string_of_shows
  have hname : optionalField named "name" "" t.string = pure d.name :=
    optionalField_of_shows hnamed rfl _ fun _ => string_of_shows
  have hkind : needed named "kind" (t.constant TaskKind.ofText?) = pure d.kind :=
    needed_of_shows hnamed rfl fun _ hm => constant_of_shows hm d.kind.ofText?_text
  have hconfig : optionalField named "config" .null (t.json k) = pure d.config :=
    optionalField_of_shows hnamed rfl _ fun m hm => by
      obtain ⟨v, hv, hj⟩ := json_of_shows (t := t) d.config hm
      rw [hv, hj hd]
  have hdependsOn : optionalField named "depends_on" [] (fun n => do
      (← t.items n).mapM (t.dependency (k + 1 - 2))) = pure d.dependsOn :=
    optionalField_of_shows hnamed rfl _ fun _ hm => list_of_shows hm fun d hdepth => by
      subst hdepth
      exact fun _ _ _ => dependency_of_shows
  have hunlock : optionalField named "unlock" .all (t.constant UnlockMode.ofText?) =
      pure d.unlock :=
    optionalField_of_shows hnamed rfl _ fun _ hm => constant_of_shows hm d.unlock.ofText?_text
  have hterminal : optionalField named "terminal" false t.boolean = pure d.terminal :=
    optionalField_of_shows hnamed rfl _ fun _ => boolean_of_shows
  rw [nodeTemplate, hfields]
  simp only [pure_bind, hid, hname, hkind, Nat.add_sub_cancel, hconfig, hdependsOn, hunlock,
    hterminal]

theorem definition_of_shows {d : WorkflowDefinition} (hd : d.Canonical)
    (h : n.shows depth d.toJson) : t.definition depth n = pure d := by
  obtain ⟨k, named, rfl, hfields, hnamed⟩ := exists_fields (t := t)
    (WorkflowDefinition.slots.map (·.name)) h rfl (by decide)
  have hname : needed named "name" t.string = pure d.name :=
    needed_of_shows hnamed rfl fun _ => string_of_shows
  have hdescription : optionalField named "description" none t.optionalString =
      pure d.description :=
    optionalField_of_shows hnamed rfl _ fun _ => optionalString_of_shows
  have htemplates : needed named "templates" (fun n => do
      (← t.items n).mapM (t.nodeTemplate (k + 1 - 2))) = pure d.templates :=
    needed_of_shows hnamed rfl fun _ hm => list_of_shows hm fun d hdepth => by
      subst hdepth
      exact fun a ha _ => nodeTemplate_of_shows (hd a ha)
  rw [definition, hfields]
  simp only [pure_bind, hname, hdescription, htemplates]

/-! ### What is loaded -/

theorem needed_gives {α : Type} {P : α → Prop} {fields : List (String × Node)} {key : String}
    {load : Node → Load α} (h : ∀ m, (load m).Gives P) : (needed fields key load).Gives P := by
  rw [needed]
  split
  · exact h _
  · exact .of_failure

theorem optionalField_gives {α : Type} {P : α → Prop} {fields : List (String × Node)}
    {key : String} {default : α} {load : Node → Load α} (hdefault : P default)
    (h : ∀ m, (load m).Gives P) : (optionalField fields key default load).Gives P := by
  rw [optionalField]
  split
  · exact h _
  · exact .of_pure hdefault

theorem nodeTemplate_gives (t : Tree) (depth : Nat) (n : Node) :
    (t.nodeTemplate depth n).Gives fun d => d.config.Canonical := by
  -- of the fields before the configuration and after it nothing is asked
  refine .after fun _ => .after fun _ => .after fun _ => .after fun _ => .bind (Q := Json.Canonical)
    (optionalField_gives .null (t.json_gives _)) fun config hconfig => ?_
  exact .after fun _ => .after fun _ => .after fun _ => .of_pure hconfig

theorem definition_gives (t : Tree) (depth : Nat) (n : Node) :
    (t.definition depth n).Gives WorkflowDefinition.Canonical := by
  refine .after fun _ => .after fun _ => .after fun _ => .bind (needed_gives fun m => ?_)
    fun templates htemplates => .of_pure htemplates
  exact .after fun nodes => .mapM (t.nodeTemplate_gives _) nodes

end Yaml.Tree

namespace WorkflowDefinition

/-- A definition is read back from its text. -/
theorem ofYaml?_toYaml {d : WorkflowDefinition} (hd : d.Canonical)
    (h : Yaml.Faithful d.toJson) : ofYaml? d.toYaml = some d := by
  obtain ⟨t, ht, hshows⟩ := h
  rw [ofYaml?, toYaml, ht]
  simp [Yaml.Tree.definition_of_shows hd hshows]

/-- Reading the text of a definition comes to checking the definition. -/
theorem ofYaml_toYaml {d : WorkflowDefinition} (hd : d.Canonical) (h : Yaml.Faithful d.toJson) :
    ofYaml d.toYaml = d.validate.map fun _ => d := by
  rw [ofYaml, ofYaml?_toYaml hd h]

/-- A definition that was loaded is canonical, whatever the text was. -/
theorem canonical_of_ofYaml? {s : String} {d : WorkflowDefinition} (h : ofYaml? s = some d) :
    d.Canonical := by
  obtain ⟨t, -, h⟩ := Option.bind_eq_some_iff.mp h
  obtain ⟨⟨d', left⟩, hd, h⟩ := Option.bind_eq_some_iff.mp h
  cases h
  exact t.definition_gives _ _ _ _ _ hd

end WorkflowDefinition

/-- **What is stored is read back.**  The trees of definitions, task records, instances, nodes and
notifications are read as what they were made from, as they are and with the fields of their objects
in any other order.  A definition whose text is read as the tree it was written from is read back
exactly if it is valid, and fails to be read for the reason it is not.  A dependency may be given by
its template's name alone. -/
theorem stored_forms_round_trip :
    (∀ d : WorkflowDefinition, d.Canonical → RoundTrips WorkflowDefinition.decode d.toJson d) ∧
      (∀ r : TaskRecord, r.Canonical → RoundTrips TaskRecord.decode r.toJson r) ∧
      (∀ i : WorkflowInstance, i.globalContext.Canonical →
        RoundTrips WorkflowInstance.decode i.toJson i) ∧
      (∀ n : WorkflowNode, n.config.Canonical → RoundTrips WorkflowNode.decode n.toJson n) ∧
      (∀ n : Notification, n.contextUpdates.Canonical →
        RoundTrips Notification.decode n.toJson n) ∧
      (∀ d : WorkflowDefinition, d.Canonical → Yaml.Faithful d.toJson →
        (WorkflowDefinition.ofYaml d.toYaml = .ok d ↔ ∃ order, d.validate = .ok order) ∧
          ∀ e, d.validate = .error e → WorkflowDefinition.ofYaml d.toYaml = .error e) ∧
      (∀ template, TemplateDependency.decode.ofJson (.str template) = .ok ⟨⟨template⟩, none⟩ ∧
        TemplateDependency.decode.ofJson (.obj [("template", .str template)]) =
          .ok ⟨⟨template⟩, none⟩) ∧
      ∀ (t : Yaml.Tree) (depth : Nat) (n m : Yaml.Node) (template : String),
        n.shows depth (.str template) → m.shows depth (.obj [("template", .str template)]) →
        t.dependency depth n = pure ⟨⟨template⟩, none⟩ ∧
          t.dependency depth m = pure ⟨⟨template⟩, none⟩ := by
  refine ⟨fun d hd => (WorkflowDefinition.restores hd).roundTrips,
    fun r hr => (TaskRecord.restores hr).roundTrips,
    fun i hi => (WorkflowInstance.restores hi).roundTrips,
    fun n hn => (WorkflowNode.restores hn).roundTrips,
    fun n hn => (Notification.restores hn).roundTrips, fun d hd hfaithful => ?_,
    TemplateDependency.decode_shorthand, fun t depth n m template hn hm =>
      Yaml.Tree.dependency_shorthand hn hm⟩
  have hread := WorkflowDefinition.ofYaml_toYaml hd hfaithful
  cases hvalidate : d.validate with
  | ok order =>
      rw [hvalidate] at hread
      exact ⟨⟨fun _ => ⟨order, rfl⟩, fun _ => hread⟩, fun _ he => nomatch he⟩
  | error e =>
      rw [hvalidate] at hread
      refine ⟨⟨fun h => ?_, fun ⟨_, h⟩ => nomatch h⟩, fun _ he => ?_⟩
      · cases hread.symm.trans h
      · cases he
        exact hread

/-- What a release is told, nested. -/
def releaseConfig : Json :=
  .obj [("event", .str "go"), ("on", .arr [.bool true, .obj [("at", .int 3)]])]

/-- A form and, once it is approved, a release. -/
def importing : WorkflowDefinition where
  name := "import"
  description := none
  templates := [
    ⟨⟨"form"⟩, "", .simpleForm, .null, [], .all, false⟩,
    ⟨⟨"release"⟩, "null", .waitForEvent, releaseConfig, [⟨⟨"form"⟩, some "APPROVED"⟩], .any, true⟩]

/-- A definition, a definition without templates, and what is stored of the release, are read back. -/
theorem stored_forms_round_trip_import :
    RoundTrips WorkflowDefinition.decode importing.toJson importing ∧
      WorkflowDefinition.ofYaml importing.toYaml = .ok importing ∧
      WorkflowDefinition.ofYaml (WorkflowDefinition.toYaml ⟨"none", some "", []⟩) =
        .error (.noTemplates "none") ∧
      (∃ r : TaskRecord, r.config = releaseConfig ∧ RoundTrips TaskRecord.decode r.toJson r) ∧
      (∃ n : WorkflowNode, n.owner.kind = .preConsignment ∧ n.config = releaseConfig ∧
        RoundTrips WorkflowNode.decode n.toJson n) ∧
      (∃ i : WorkflowInstance, i.globalContext.get? "release" = some releaseConfig ∧
        RoundTrips WorkflowInstance.decode i.toJson i) ∧
      (∃ n : Notification, n.contextUpdates.get? "release" = some releaseConfig ∧
        RoundTrips Notification.decode n.toJson n) ∧
      (Yaml.Tree.dependency ⟨.nothing, [], 0⟩ 1 (.scalar "form" .plain none) =
          pure ⟨⟨"form"⟩, none⟩ ∧
        Yaml.Tree.dependency ⟨.nothing, [], 0⟩ 1
            (.map [(.scalar "template" .plain none, .scalar "form" .quoted none)] none) =
          pure ⟨⟨"form"⟩, none⟩) := by
  obtain ⟨hdefinition, hrecord, hinstance, hnode, hnote, hyaml, -, hshort⟩ :=
    stored_forms_round_trip
  -- each of the values is read off its own tree, so it is canonical
  have hcanonical : importing.Canonical :=
    WorkflowDefinition.yields .value (.ofJson importing.toJson) importing rfl
  have hrelease : releaseConfig.Canonical :=
    Decoder.yields_value .value (.ofJson releaseConfig) releaseConfig rfl
  have hvalid : importing.validate = .ok [⟨"form"⟩, ⟨"release"⟩] := by cbv
  let context : Context := Context.empty.insert "release" releaseConfig
  have hcontext : context.Canonical :=
    Decoder.yields_context .value (.ofJson context.toJson) context rfl
  refine ⟨hdefinition _ hcanonical,
    (hyaml _ hcanonical (by decide +kernel)).1.mpr ⟨_, hvalid⟩,
    (hyaml ⟨"none", some "", []⟩ (fun _ ht => nomatch ht) (by decide +kernel)).2 _ rfl,
    ⟨⟨⟨"$1-release"⟩, ⟨"$1"⟩, ⟨"release"⟩, .waitForEvent, .inProgress, releaseConfig, context, {},
      some "WAITING"⟩, rfl, hrecord _ ⟨hrelease, hcontext, Context.canonical_empty⟩⟩,
    ⟨⟨⟨"$1-release"⟩, ⟨.preConsignment, ⟨"$1"⟩⟩, ⟨"release"⟩, "null", .waitForEvent, releaseConfig,
      .inProgress, some "WAITING", none, [⟨⟨"$1-form"⟩, ⟨"form"⟩, some "APPROVED"⟩], .any, true⟩,
      rfl, rfl, hnode _ hrelease⟩,
    ⟨⟨⟨"$1"⟩, .preConsignment, "import", context, .active⟩, rfl, hinstance _ hcontext⟩,
    ⟨⟨⟨"$1-release"⟩, some "COMPLETED", none, some "APPROVED", context⟩, rfl, hnote _ hcontext⟩,
    hshort _ _ _ _ _ (by decide +kernel) (by decide +kernel)⟩

/-- **What is read is read back.**  A definition, a task record, an instance, a node or a notification
that was read, from a value or off a text, is read again from the tree it is stored as; so is a
definition that was loaded from YAML. -/
theorem read_forms_round_trip :
    Yields WorkflowDefinition.decode (fun d => RoundTrips WorkflowDefinition.decode d.toJson d) ∧
      Yields TaskRecord.decode (fun r => RoundTrips TaskRecord.decode r.toJson r) ∧
      Yields WorkflowInstance.decode (fun i => RoundTrips WorkflowInstance.decode i.toJson i) ∧
      Yields WorkflowNode.decode (fun n => RoundTrips WorkflowNode.decode n.toJson n) ∧
      Yields Notification.decode (fun n => RoundTrips Notification.decode n.toJson n) ∧
      ∀ text d, WorkflowDefinition.ofYaml? text = some d →
        RoundTrips WorkflowDefinition.decode d.toJson d :=
  ⟨WorkflowDefinition.yields.roundTrips fun _ => WorkflowDefinition.restores,
    TaskRecord.yields.roundTrips fun _ => TaskRecord.restores,
    WorkflowInstance.yields.roundTrips fun _ => WorkflowInstance.restores,
    WorkflowNode.yields.roundTrips fun _ => WorkflowNode.restores,
    Notification.yields.roundTrips fun _ => Notification.restores,
    fun _ _ h => (WorkflowDefinition.restores
      (WorkflowDefinition.canonical_of_ofYaml? h)).roundTrips⟩

end Clearance
