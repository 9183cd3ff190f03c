import Clearance.Proofs.Definition.Cycles
import Mathlib

/-!
# Clearance — Proofs — Definition — Validation

* `WorkflowDefinition.WellFormed`: what has to hold of a definition that can be used.
* `WorkflowDefinition.Fails`: the check that a definition fails first, with what it reports.
* `WorkflowDefinition.validate_eq_error_iff`, `WorkflowDefinition.validate_eq_ok_iff`: when validation
  fails, and when it does not.
* `WorkflowDefinition.validate_decides`: validation accepts the well-formed definitions, orders them,
  and reports the first check that fails of any other.
* `WorkflowDefinition.cycle_reported`: a cycle is reported with the templates that are on one.
-/

namespace Clearance

namespace WorkflowDefinition

variable {d : WorkflowDefinition}

/-! ### The checks -/

/-- The dependencies are on templates of the definition. -/
def Known (d : WorkflowDefinition) (deps : List TemplateDependency) : Prop :=
  ∀ dep ∈ deps, dep.template ∈ d.ids

/-- No template depends on itself, directly or not. -/
def Acyclic (d : WorkflowDefinition) : Prop := ∀ a, ¬ Relation.TransGen d.Precedes a a

def terminals (d : WorkflowDefinition) : List TemplateId :=
  (d.templates.filter (·.terminal)).map (·.id)

structure WellFormed (d : WorkflowDefinition) : Prop where
  inhabited : d.templates ≠ []
  distinct : d.ids.Nodup
  known : ∀ t ∈ d.templates, d.Known t.dependsOn
  acyclic : d.Acyclic
  terminal : d.terminals.length ≤ 1

/-- The first check that a definition fails, all checks before it being passed. -/
inductive Fails (d : WorkflowDefinition) : DefinitionError → Prop
  | noTemplates (h : d.templates = []) : d.Fails (.noTemplates d.name)
  /-- The ids before are distinct, and the next one is among them. -/
  | repeatedTemplate {before after : List TemplateId} {id : TemplateId}
      (h : d.ids = before ++ id :: after) (hfirst : before.Nodup) (hid : id ∈ before) :
      d.Fails (.repeatedTemplate id)
  /-- The dependencies of the templates before are known, and those before in the same template. -/
  | unknownDependency {before after : List NodeTemplate} {t : NodeTemplate}
      {deps deps' : List TemplateDependency} {dep : TemplateDependency} (hd : d.ids.Nodup)
      (h : d.templates = before ++ t :: after) (hfirst : ∀ u ∈ before, d.Known u.dependsOn)
      (ht : t.dependsOn = deps ++ dep :: deps') (hdeps : d.Known deps) (hno : dep.template ∉ d.ids) :
      d.Fails (.unknownDependency t.id dep.template)
  | cycle (hd : d.ids.Nodup) (hknown : ∀ t ∈ d.templates, d.Known t.dependsOn)
      (h : ¬ d.Acyclic) : d.Fails (.cycle d.cycleMembers)
  | severalTerminals (hd : d.ids.Nodup) (hknown : ∀ t ∈ d.templates, d.Known t.dependsOn)
      (hacyclic : d.Acyclic) (h : 1 < d.terminals.length) : d.Fails (.severalTerminals d.terminals)

theorem repeated?_eq_none_iff {seen ids : List TemplateId} :
    repeated? seen ids = none ↔ ids.Nodup ∧ ∀ id ∈ ids, id ∉ seen := by
  induction ids generalizing seen with
  | nil => simp [repeated?]
  | cons id rest ih =>
      rw [repeated?]
      split
      · rename_i hid
        exact iff_of_false nofun fun h => h.2 id List.mem_cons_self hid
      · rename_i hid
        rw [ih, List.nodup_cons]
        constructor
        · rintro ⟨hd, hno⟩
          refine ⟨⟨fun hmem => hno id hmem List.mem_cons_self, hd⟩, fun k hk => ?_⟩
          rcases List.mem_cons.mp hk with rfl | hk
          · exact hid
          · exact fun hs => hno k hk (List.mem_cons_of_mem _ hs)
        · rintro ⟨⟨hmem, hd⟩, hno⟩
          refine ⟨hd, fun k hk hs => ?_⟩
          rcases List.mem_cons.mp hs with rfl | hs
          · exact hmem hk
          · exact hno k (List.mem_cons_of_mem _ hk) hs

theorem repeated?_eq_some_iff {seen ids : List TemplateId} {id : TemplateId} :
    repeated? seen ids = some id ↔ ∃ before after, ids = before ++ id :: after ∧
      repeated? seen before = none ∧ (id ∈ seen ∨ id ∈ before) := by
  induction ids generalizing seen with
  | nil => simp [repeated?]
  | cons k rest ih =>
      rw [repeated?]
      split
      · rename_i hk
        constructor
        · intro h
          cases h
          exact ⟨[], rest, rfl, rfl, .inl hk⟩
        · rintro ⟨_ | ⟨k', before⟩, after, h, hno, -⟩
          · exact congrArg some (List.cons.inj h).1
          · -- a list that begins with a repeated id is not free of them
            obtain ⟨rfl, -⟩ := List.cons.inj h
            rw [repeated?, if_pos hk] at hno
            cases hno
      · rename_i hk
        rw [ih]
        constructor
        · rintro ⟨before, after, rfl, hno, hid⟩
          refine ⟨k :: before, after, rfl, by rw [repeated?, if_neg hk, hno], ?_⟩
          rw [List.mem_cons] at hid ⊢
          tauto
        · rintro ⟨_ | ⟨k', before⟩, after, h, hno, hid⟩
          · obtain ⟨rfl, -⟩ := List.cons.inj h
            exact absurd hid (by simp [hk])
          · obtain ⟨rfl, rfl⟩ := List.cons.inj h
            rw [repeated?, if_neg hk] at hno
            refine ⟨before, after, rfl, hno, ?_⟩
            rw [List.mem_cons] at hid ⊢
            tauto

theorem unknown?_eq_none_iff : d.unknown? = none ↔ ∀ t ∈ d.templates, d.Known t.dependsOn := by
  simp [unknown?, Known, List.findSome?_eq_none_iff, List.find?_eq_none]

theorem unknown?_eq_some_iff {x : TemplateId × TemplateId} :
    d.unknown? = some x ↔ ∃ before t after deps dep deps',
      d.templates = before ++ t :: after ∧ (∀ u ∈ before, d.Known u.dependsOn) ∧
        t.dependsOn = deps ++ dep :: deps' ∧ d.Known deps ∧ dep.template ∉ d.ids ∧
        (t.id, dep.template) = x := by
  have hnone : ∀ u : NodeTemplate,
      (u.dependsOn.find? fun dep => !d.ids.contains dep.template).map
        (fun dep => (u.id, dep.template)) = none ↔ d.Known u.dependsOn := by
    intro u
    simp [Known, List.find?_eq_none]
  simp only [unknown?, List.findSome?_eq_some_iff, Option.map_eq_some_iff,
    List.find?_eq_some_iff_append, hnone]
  constructor
  · rintro ⟨before, t, after, h, ⟨dep, ⟨hno, deps, deps', ht, hdeps⟩, hx⟩, hfirst⟩
    exact ⟨before, t, after, deps, dep, deps', h, hfirst, ht,
      fun e he => by simpa using hdeps e he, by simpa using hno, hx⟩
  · rintro ⟨before, t, after, deps, dep, deps', h, hfirst, ht, hdeps, hno, hx⟩
    exact ⟨before, t, after, h, ⟨dep, ⟨by simpa using hno, deps, deps', ht,
      fun e he => by simpa using hdeps e he⟩, hx⟩, hfirst⟩

theorem acyclic_iff (hd : d.ids.Nodup) : d.Acyclic ↔ d.cycleMembers = [] := by
  simp only [List.eq_nil_iff_forall_not_mem, mem_cycleMembers hd, after_dependents, Acyclic]

/-! ### Verdicts -/

/-- Once the ids are told apart and the dependencies known, cycles and terminals decide. -/
theorem validate_of_known (hne : d.templates ≠ []) (hd : d.ids.Nodup)
    (hknown : ∀ t ∈ d.templates, d.Known t.dependsOn) :
    d.validate =
      if d.cycleMembers ≠ [] then .error (.cycle d.cycleMembers)
      else if 1 < d.terminals.length then .error (.severalTerminals d.terminals)
      else .ok d.dependencyOrder := by
  have hrep : repeated? [] d.ids = none :=
    repeated?_eq_none_iff.mpr ⟨hd, fun _ _ => List.not_mem_nil⟩
  simp [validate, hne, hrep, unknown?_eq_none_iff.mpr hknown, terminals]

theorem templates_ne_nil {id : TemplateId} (h : id ∈ d.ids) : d.templates ≠ [] := by
  rintro hno
  simp [ids, hno] at h

theorem templates_ne_nil_of_cycle (h : ¬ d.Acyclic) : d.templates ≠ [] := by
  rw [Acyclic, not_forall_not] at h
  obtain ⟨a, ha⟩ := h
  obtain ⟨b, -, hb⟩ := Relation.TransGen.tail'_iff.mp ha
  exact templates_ne_nil hb.mem_ids

/-- The check that fails first is the one reported. -/
theorem Fails.validate {e : DefinitionError} (h : d.Fails e) : d.validate = .error e := by
  cases h with
  | noTemplates h => simp [WorkflowDefinition.validate, h]
  | @repeatedTemplate before after id h hfirst hid =>
      have hid' : id ∈ d.ids := h ▸ List.mem_append_right _ List.mem_cons_self
      have hne : d.templates ≠ [] := templates_ne_nil hid'
      have hrep : repeated? [] d.ids = some id := repeated?_eq_some_iff.mpr
        ⟨before, after, h, repeated?_eq_none_iff.mpr ⟨hfirst, fun _ _ => List.not_mem_nil⟩,
          .inr hid⟩
      simp [WorkflowDefinition.validate, hne, hrep]
  | unknownDependency hd h hfirst ht hdeps hno =>
      have hne : d.templates ≠ [] := by simp [h]
      have hrep : repeated? [] d.ids = none :=
        repeated?_eq_none_iff.mpr ⟨hd, fun _ _ => List.not_mem_nil⟩
      have hunk := unknown?_eq_some_iff.mpr ⟨_, _, _, _, _, _, h, hfirst, ht, hdeps, hno, rfl⟩
      simp [WorkflowDefinition.validate, hne, hrep, hunk]
  | cycle hd hknown h =>
      rw [validate_of_known (templates_ne_nil_of_cycle h) hd hknown]
      exact if_pos fun hno => h ((acyclic_iff hd).mpr hno)
  | severalTerminals hd hknown hacyclic h =>
      have hne : d.templates ≠ [] := by
        rintro hno
        simp [terminals, hno] at h
      rw [validate_of_known hne hd hknown, if_neg (not_not_intro ((acyclic_iff hd).mp hacyclic)),
        if_pos h]

/-- Every definition is well-formed or fails a check. -/
theorem wellFormed_or_fails (d : WorkflowDefinition) : d.WellFormed ∨ ∃ e, d.Fails e := by
  by_cases hne : d.templates = []
  · exact .inr ⟨_, .noTemplates hne⟩
  cases hrep : repeated? [] d.ids with
  | some id =>
      obtain ⟨before, after, hids, hfirst, hid⟩ := repeated?_eq_some_iff.mp hrep
      exact .inr ⟨_, .repeatedTemplate hids (repeated?_eq_none_iff.mp hfirst).1
        (hid.resolve_left List.not_mem_nil)⟩
  | none =>
      have hd := (repeated?_eq_none_iff.mp hrep).1
      cases hunk : d.unknown? with
      | some x =>
          obtain ⟨before, t, after, deps, dep, deps', ht, hfirst, hdep, hdeps, hno, -⟩ :=
            unknown?_eq_some_iff.mp hunk
          exact .inr ⟨_, .unknownDependency hd ht hfirst hdep hdeps hno⟩
      | none =>
          have hknown := unknown?_eq_none_iff.mp hunk
          by_cases hacyclic : d.Acyclic
          · by_cases hlen : 1 < d.terminals.length
            · exact .inr ⟨_, .severalTerminals hd hknown hacyclic hlen⟩
            · exact .inl ⟨hne, hd, hknown, hacyclic, Nat.not_lt.mp hlen⟩
          · exact .inr ⟨_, .cycle hd hknown hacyclic⟩

theorem WellFormed.validate (h : d.WellFormed) : d.validate = .ok d.dependencyOrder := by
  have hno := (acyclic_iff h.distinct).mp h.acyclic
  rw [validate_of_known h.inhabited h.distinct h.known, if_neg (not_not_intro hno),
    if_neg (Nat.not_lt.mpr h.terminal)]

theorem validate_eq_error_iff {e : DefinitionError} : d.validate = .error e ↔ d.Fails e := by
  refine ⟨fun h => ?_, Fails.validate⟩
  rcases d.wellFormed_or_fails with hwell | ⟨e', he⟩
  · rw [hwell.validate] at h
    cases h
  · rw [he.validate] at h
    cases h
    exact he

theorem validate_eq_ok_iff {order : List TemplateId} :
    d.validate = .ok order ↔ d.WellFormed ∧ d.dependencyOrder = order := by
  refine ⟨fun h => ?_, fun ⟨hwell, ho⟩ => ho ▸ hwell.validate⟩
  rcases d.wellFormed_or_fails with hwell | ⟨e, he⟩
  · exact ⟨hwell, Except.ok.inj (hwell.validate.symm.trans h)⟩
  · rw [he.validate] at h
    cases h

/-! ### What an accepted definition has -/

theorem WellFormed.exists_root (h : d.WellFormed) : d.roots ≠ [] := by
  obtain ⟨t, ht⟩ := List.exists_mem_of_ne_nil _ h.inhabited
  obtain ⟨a, ha, -, hfirst⟩ := exists_first h.acyclic (P := fun _ => True)
    ⟨t.id, List.mem_map_of_mem ht, trivial⟩
  obtain ⟨u, hu, rfl⟩ := List.mem_map.mp ha
  refine List.ne_nil_of_mem (a := u) (List.mem_filter.mpr ⟨hu, List.isEmpty_iff.mpr ?_⟩)
  -- what the first template depended on would be a template before it
  refine List.eq_nil_iff_forall_not_mem.mpr fun dep hdep => ?_
  exact hfirst dep.template (h.known u hu dep hdep) ⟨u, hu, rfl, dep, hdep, rfl⟩ trivial

theorem WellFormed.sort? (h : d.WellFormed) : d.sort? = some d.dependencyOrder :=
  (sort?_eq_some_iff h.distinct).mpr ⟨fun a ha => h.acyclic a (after_dependents.mp ha), rfl⟩

theorem WellFormed.idxOf_lt (h : d.WellFormed) {a b : TemplateId} (hab : d.Precedes a b) :
    d.dependencyOrder.idxOf a < d.dependencyOrder.idxOf b := by
  have hp := perm_dependencyOrder h.distinct
  have ha : a ∈ d.ids := by
    obtain ⟨t, ht, -, dep, hdep, rfl⟩ := hab
    exact h.known t ht dep hdep
  have hforward := forward_dependencyOrder h.distinct
    fun a ha => h.acyclic a (after_dependents.mp ha)
  exact hforward.idxOf_lt (hp.nodup_iff.mpr h.distinct) (hp.mem_iff.mpr ha) (mem_dependents.mpr hab)

/-- **Validation decides which definitions are well-formed.**  It accepts exactly these.  The order it
answers lists every template once, dependencies first, as the sort by itself does, and there is a
template to begin with.  Of any other definition it reports the first check that fails. -/
theorem validate_decides (d : WorkflowDefinition) :
    ((∃ order, d.validate = .ok order) ↔ d.WellFormed) ∧
      (∀ order, d.validate = .ok order →
        order.Perm d.ids ∧ (∀ a b, d.Precedes a b → order.idxOf a < order.idxOf b) ∧
          d.roots ≠ [] ∧ d.sort? = some order) ∧
      ∀ e, d.validate = .error e ↔ d.Fails e := by
  refine ⟨⟨fun ⟨order, h⟩ => (validate_eq_ok_iff.mp h).1, fun h => ⟨_, h.validate⟩⟩,
    fun order h => ?_, fun e => validate_eq_error_iff⟩
  obtain ⟨hwell, rfl⟩ := validate_eq_ok_iff.mp h
  exact ⟨perm_dependencyOrder hwell.distinct, fun a b => hwell.idxOf_lt, hwell.exists_root,
    hwell.sort?⟩

/-! ### Cycles -/

/-- **A cycle is reported with its members.**  Where there are templates with ids of their own and
known dependencies, validation reports a cycle if and only if a template depends on itself, which is
when the sort gives up.  It names all such templates and no others, in ascending order, and they are
those that any parting into strongly connected components tells. -/
theorem cycle_reported (hne : d.templates ≠ []) (hd : d.ids.Nodup)
    (hknown : ∀ t ∈ d.templates, ∀ dep ∈ t.dependsOn, dep.template ∈ d.ids) :
    ((∃ members, d.validate = .error (.cycle members)) ↔
        ∃ a, Relation.TransGen d.Precedes a a) ∧
      (d.sort? = none ↔ ∃ a, Relation.TransGen d.Precedes a a) ∧
      ∀ members, d.validate = .error (.cycle members) →
        members ≠ [] ∧ (∀ a, a ∈ members ↔ Relation.TransGen d.Precedes a a) ∧ members.Nodup ∧
          members.Pairwise (fun a b => a.text < b.text) ∧
          ∀ parts, d.Components parts → d.membersOf parts = members := by
  have hcycle : d.cycleMembers ≠ [] ↔ ∃ a, Relation.TransGen d.Precedes a a := by
    rw [Ne, ← acyclic_iff hd, Acyclic, not_forall_not]
  have hverdict : ∀ members, d.validate = .error (.cycle members) →
      d.cycleMembers ≠ [] ∧ d.cycleMembers = members := by
    intro members h
    rcases validate_eq_error_iff.mp h with _ | _ | _ | ⟨-, -, hno⟩
    exact ⟨fun hnil => hno ((acyclic_iff hd).mpr hnil), rfl⟩
  refine ⟨⟨fun ⟨members, h⟩ => hcycle.mp (hverdict members h).1, fun h => ⟨d.cycleMembers, ?_⟩⟩,
    (sort?_eq_none_iff hd).trans hcycle, fun members h => ?_⟩
  · rw [validate_of_known hne hd hknown, if_pos (hcycle.mpr h)]
  · obtain ⟨hmem, rfl⟩ := hverdict members h
    exact ⟨hmem, fun a => (mem_cycleMembers hd).trans after_dependents, nodup_cycleMembers hd,
      ascending_cycleMembers hd, fun parts hparts => hparts.membersOf_eq hd⟩

/-- Two templates that depend on each other, one that depends on itself, one before these and one
after them. -/
def tangled : WorkflowDefinition where
  name := "tangled"
  description := none
  templates := [
    .ofKind ⟨"root"⟩ .simpleForm,
    ((NodeTemplate.ofKind ⟨"b"⟩ .simpleForm).after ⟨"root"⟩ none).after ⟨"a"⟩ none,
    (NodeTemplate.ofKind ⟨"a"⟩ .simpleForm).after ⟨"b"⟩ none,
    (NodeTemplate.ofKind ⟨"self"⟩ .simpleForm).after ⟨"self"⟩ none,
    ((NodeTemplate.ofKind ⟨"last"⟩ .simpleForm).after ⟨"a"⟩ none).after ⟨"self"⟩ none]

theorem components_tangled :
    tangled.Components [[⟨"last"⟩], [⟨"self"⟩], [⟨"b"⟩, ⟨"a"⟩], [⟨"root"⟩]] := by
  have hd : tangled.ids.Nodup := by decide
  have hids : tangled.ids = [⟨"root"⟩, ⟨"b"⟩, ⟨"a"⟩, ⟨"self"⟩, ⟨"last"⟩] := rfl
  have hroot : tangled.reachable ⟨"root"⟩ = [⟨"b"⟩, ⟨"a"⟩, ⟨"last"⟩] := by cbv
  have hb : tangled.reachable ⟨"b"⟩ = [⟨"a"⟩, ⟨"last"⟩, ⟨"b"⟩] := by cbv
  have ha : tangled.reachable ⟨"a"⟩ = [⟨"b"⟩, ⟨"a"⟩, ⟨"last"⟩] := by cbv
  have hself : tangled.reachable ⟨"self"⟩ = [⟨"self"⟩, ⟨"last"⟩] := by cbv
  have hlast : tangled.reachable ⟨"last"⟩ = [] := by cbv
  refine ⟨by decide, ?_⟩
  simp only [← mem_reachable_iff hd, hids]
  simp [hroot, hb, ha, hself, hlast]

/-- Of the templates before and after the cycles none is named. -/
theorem cycle_reported_tangled :
    tangled.templates ≠ [] ∧ tangled.ids.Nodup ∧
      (∀ t ∈ tangled.templates, ∀ dep ∈ t.dependsOn, dep.template ∈ tangled.ids) ∧
      tangled.validate = .error (.cycle [⟨"a"⟩, ⟨"b"⟩, ⟨"self"⟩]) ∧ tangled.sort? = none ∧
      (∀ a, a ∈ [⟨"a"⟩, ⟨"b"⟩, ⟨"self"⟩] ↔ Relation.TransGen tangled.Precedes a a) ∧
      tangled.membersOf [[⟨"last"⟩], [⟨"self"⟩], [⟨"b"⟩, ⟨"a"⟩], [⟨"root"⟩]] =
        [⟨"a"⟩, ⟨"b"⟩, ⟨"self"⟩] := by
  have hne : tangled.templates ≠ [] := nofun
  have hd : tangled.ids.Nodup := by decide
  have hknown : ∀ t ∈ tangled.templates, ∀ dep ∈ t.dependsOn, dep.template ∈ tangled.ids := by
    decide
  have hv : tangled.validate = .error (.cycle [⟨"a"⟩, ⟨"b"⟩, ⟨"self"⟩]) := by cbv
  obtain ⟨hreported, hsort, hmembers⟩ := cycle_reported hne hd hknown
  obtain ⟨-, hmem, -, -, hparts⟩ := hmembers _ hv
  exact ⟨hne, hd, hknown, hv, hsort.mpr (hreported.mp ⟨_, hv⟩), hmem, hparts _ components_tangled⟩

end WorkflowDefinition

end Clearance
