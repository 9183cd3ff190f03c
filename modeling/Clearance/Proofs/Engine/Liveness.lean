import Clearance.Proofs.Definition.Validate
import Clearance.Proofs.Engine.Gate
import Clearance.Proofs.Engine.Onward
import Clearance.Proofs.Engine.Status

/-!
# Clearance — Proofs — Engine — Workflows without outcomes do not get stuck

* `Engine.Descends`: an engine that still has an instance, with its nodes moved onward.
* `Engine.Descends.effect`: an instance that was made is never lost.
* `WorkflowStore.Turn.blamed`: an instance whose status is failed has a failed node.
* `Engine.Descends.exists_open`: if some node of an instance is not completed, there is one whose
  prerequisites are, and this one is not locked.
* `Engine.no_deadlock`: an instance of a definition whose dependencies name no outcome has work that
  is ready or in progress, or a failed node, or it is completed.
-/

namespace Clearance

/-- A node whose dependencies are all met is satisfied in either mode. -/
theorem WorkflowNode.satisfied_of_met {look : Lookup} {n : WorkflowNode}
    (h : ∀ d ∈ n.dependencies, d.isMet look = true) : n.satisfied look = true := by
  unfold satisfied
  cases hdeps : n.dependencies with
  | nil => rfl
  | cons d rest =>
      rw [hdeps] at h
      cases n.unlockMode with
      | all => exact List.all_eq_true.mpr h
      | any => exact List.any_eq_true.mpr ⟨d, List.mem_cons_self, h d List.mem_cons_self⟩

/-- A dependency that names no outcome is met by a completed node. -/
theorem ResolvedDependency.isMet_of_completed {look : Lookup} {d : ResolvedDependency}
    {m : WorkflowNode} (hd : d.outcome = none) (hm : look d.nodeId = some m)
    (hc : m.state = .completed) : d.isMet look = true := by
  refine isMet_of_get hm ?_
  rw [isMetBy, hc, hd]
  rfl

namespace WorkflowStore

/-- An instance whose status is failed has a failed node. -/
def Blamed (s : WorkflowStore) : Prop :=
  ∀ i x, s.instances.get? i = some x → x.status = .failed → s.Failing i

theorem Turn.blamed {s s' : WorkflowStore} (h : s.Turn s') (hs : s.Sound) (hr : s.Ruled)
    (hb : s.Blamed) : s'.Blamed := by
  intro i x' hx' hfailed
  cases hx : s.instances.get? i with
  | none => exact nomatch (h.born hs hx hx').1.symm.trans hfailed
  | some x =>
      obtain ⟨y, hy, hkeep, hverdict⟩ := h.verdict hs hx
      obtain rfl := Option.some.inj (hy.symm.trans hx')
      by_cases ha : x.status = .active
      · exact (hverdict ha ((hr i x hx).mp ha)).failed_iff.mp hfailed
      · exact h.shows isTerminal_of_failing hs (hb i x hx ((hkeep ha).symm.trans hfailed))

/-- An instance that is blamed for nothing and has a terminal node completed is completed. -/
theorem Blamed.completed {s : WorkflowStore} (hb : s.Blamed) (hr : s.Ruled) {i : InstanceId}
    {x : WorkflowInstance} (hx : s.instances.get? i = some x) (hfinish : s.Finishing i)
    (hno : ¬ s.Failing i) : x.status = .completed := by
  cases hstatus : x.status with
  | active => exact absurd hfinish ((hr i x hx).mp hstatus).2
  | failed => exact absurd (hb i x hx hstatus) hno
  | completed => rfl

end WorkflowStore

namespace Engine

open WorkflowStore Workshop

/-! ### An instance is not lost -/

/-- The engine has the instance, and its nodes are those it was made with, moved onward. -/
structure Descends (c : Created) (e : Engine) : Prop where
  owner : e.workflows.owner? c.inst.id = some ⟨c.inst.kind, c.inst.id⟩
  members : e.workflows.members.get? c.inst.id = some (c.nodes.map (·.id))
  nodes : ∀ n ∈ c.nodes, ∃ n', e.workflows.nodes.get? n.id = some n' ∧ n.Onward n'

variable {c : Created} {e e' : Engine}

theorem Founded.descends (h : Founded c e e') : Descends c e' where
  owner := by
    rw [h.workflows]
    have hown := @owner?_commit_self e.workflows c.inst c.nodes
    exact hown
  members := by
    rw [h.workflows]
    exact members_commit_self
  nodes n hn := ⟨n, h.get?_eq_some.mpr (.inl ⟨hn, rfl⟩), .refl n⟩

/-- No operation loses an instance. -/
theorem Descends.effect {op : Op} (h : Descends c e) (he : Effect e op e') : Descends c e' := by
  have hnodes : ∀ n ∈ c.nodes, ∃ n', e'.workflows.nodes.get? n.id = some n' ∧ n.Onward n' := by
    intro n hn
    obtain ⟨n', hn', ho⟩ := h.nodes n hn
    obtain ⟨n'', hn'', ho'⟩ := he.onward n.id n' hn'
    exact ⟨n'', hn'', ho.trans ho'⟩
  have hbecomes : ∀ {look : Lookup}, e.workflows.Becomes e'.workflows look → Descends c e' :=
    fun hb => ⟨(hb.owner _).trans h.owner, hb.members ▸ h.members, hnodes⟩
  cases he with
  | @created kind d globalContext k _ hf hd =>
      obtain ⟨hown, hne⟩ := owner?_commit hf.conflict h.owner
      refine ⟨?_, ?_, hnodes⟩
      · rw [hf.workflows]
        exact hown
      · rw [hf.workflows]
        exact (members_commit_ne hne).trans h.members
  | uncreated hs _ => exact hbecomes hs
  | activated _ => exact ⟨h.owner, h.members, hnodes⟩
  | served _ _ => exact ⟨h.owner, h.members, hnodes⟩
  | advanced hop _ ha => exact hbecomes (hop.rest.1 ▸ ha.workflows)
  | refused _ _ hs _ => exact hbecomes hs
  | idle => exact h
  | outside _ _ => exact ⟨h.owner, h.members, hnodes⟩
  | discarded _ _ => exact ⟨h.owner, h.members, hnodes⟩

/-- The nodes that are listed of the instance are those it was made with. -/
theorem Descends.nodesOf? (h : Descends c e) :
    ∃ nodes, e.workflows.nodesOf? c.inst.id = some nodes ∧
      (∀ n' ∈ nodes, ∃ n ∈ c.nodes, n.Onward n' ∧ e.workflows.nodes.get? n.id = some n') ∧
      ∀ n ∈ c.nodes, ∀ n', e.workflows.nodes.get? n.id = some n' → n' ∈ nodes := by
  refine ⟨_, by rw [WorkflowStore.nodesOf?, h.members]; rfl, fun n' hn' => ?_, fun n hn n' hn' => ?_⟩
  · obtain ⟨id, hid, hget⟩ := List.mem_filterMap.mp hn'
    obtain ⟨n, hn, rfl⟩ := List.mem_map.mp hid
    obtain ⟨m, hm, ho⟩ := h.nodes n hn
    obtain rfl := Option.some.inj (hget.symm.trans hm)
    exact ⟨n, hn, ho, hget⟩
  · exact List.mem_filterMap.mpr ⟨n.id, List.mem_map_of_mem hn, hn'⟩

/-! ### Some node is open -/

/-- **Some node is open.** If a node of the instance is not completed, there is one that is neither
completed nor locked. -/
theorem Descends.exists_open (h : Descends c e) (hg : Gated e.workflows.nodes.get?)
    {d : WorkflowDefinition} {order : List TemplateId} (hv : d.validate = .ok order)
    (hd : ∀ t ∈ d.templates, ∀ dep ∈ t.dependsOn, dep.outcome = none)
    (hc : c.nodes = d.templates.map c.inst.nodeFor)
    (hopen : ∃ n ∈ c.nodes, ∃ n', e.workflows.nodes.get? n.id = some n' ∧ n'.state ≠ .completed) :
    ∃ n ∈ c.nodes, ∃ n', e.workflows.nodes.get? n.id = some n' ∧ n'.state ≠ .completed ∧
      n'.state ≠ .locked := by
  obtain ⟨-, -, hknown, hacyclic, -⟩ := (WorkflowDefinition.validate_eq_ok_iff.mp hv).1
  have hmem : ∀ {t}, t ∈ d.templates → c.inst.nodeFor t ∈ c.nodes := fun ht =>
    hc ▸ List.mem_map_of_mem ht
  -- of the templates whose node is not completed, one depends on none of the others
  obtain ⟨a, ha, ⟨n', hn', hnc⟩, hfirst⟩ := WorkflowDefinition.exists_first hacyclic
    (P := fun a => ∃ n', e.workflows.nodes.get? (c.inst.id.node a) = some n' ∧
      n'.state ≠ .completed) (by
    obtain ⟨n, hn, n', hn', hnc⟩ := hopen
    obtain ⟨t, ht, rfl⟩ := List.mem_map.mp (hc ▸ hn)
    exact ⟨t.id, List.mem_map_of_mem ht, n', hn', hnc⟩)
  obtain ⟨t, ht, rfl⟩ := List.mem_map.mp ha
  refine ⟨_, hmem ht, n', hn', hnc, fun hl => ?_⟩
  obtain ⟨m, hm, ho⟩ := h.nodes _ (hmem ht)
  obtain rfl := Option.some.inj (hn'.symm.trans hm)
  -- so all its prerequisites are completed, and it is satisfied
  have hmet : ∀ r ∈ n'.dependencies, r.isMet e.workflows.nodes.get? = true := by
    intro r hr
    obtain ⟨_, _, _, rfl⟩ := ho.kin
    obtain ⟨dep, hdep, rfl⟩ := List.mem_map.mp hr
    obtain ⟨u, hu, hid⟩ := List.mem_map.mp (hknown t ht dep hdep)
    obtain ⟨k, hk, -⟩ := h.nodes _ (hmem hu)
    have hk' : e.workflows.nodes.get? (c.inst.id.node dep.template) = some k := hid ▸ hk
    refine ResolvedDependency.isMet_of_completed (hd t ht dep hdep) hk' ?_
    by_contra hkc
    refine hfirst dep.template (hknown t ht dep hdep) ?_ ⟨k, hk', hkc⟩
    exact ⟨t, ht, rfl, dep, hdep, rfl⟩
  have hunsat := (hg _ n' hn').mp hl
  exact nomatch hunsat.symm.trans (WorkflowNode.satisfied_of_met hmet)

/-- A node that is neither completed, locked nor failed is at work. -/
theorem Descends.exists_at_work (h : Descends c e) (hg : Gated e.workflows.nodes.get?)
    {d : WorkflowDefinition} {order : List TemplateId} (hv : d.validate = .ok order)
    (hd : ∀ t ∈ d.templates, ∀ dep ∈ t.dependsOn, dep.outcome = none)
    (hc : c.nodes = d.templates.map c.inst.nodeFor) {nodes : List WorkflowNode}
    (hlist : e.workflows.nodesOf? c.inst.id = some nodes)
    (hnf : ∀ n ∈ nodes, n.state ≠ .failed) (hopen : ∃ n ∈ nodes, n.state ≠ .completed) :
    ∃ n ∈ nodes, n.state = .ready ∨ n.state = .inProgress := by
  obtain ⟨listed, hlisted, hfrom, hall⟩ := h.nodesOf?
  obtain rfl := Option.some.inj (hlisted.symm.trans hlist)
  obtain ⟨n', hn', hnc⟩ := hopen
  obtain ⟨n, hn, -, hget⟩ := hfrom n' hn'
  obtain ⟨m, hm, m', hm', hnotdone, hunlocked⟩ := h.exists_open hg hv hd hc ⟨n, hn, n', hget, hnc⟩
  have hmem := hall m hm m' hm'
  have hnotfailed := hnf m' hmem
  refine ⟨m', hmem, ?_⟩
  cases hstate : m'.state with
  | locked => exact absurd hstate hunlocked
  | ready => exact .inl rfl
  | inProgress => exact .inr rfl
  | completed => exact absurd hstate hnotdone
  | failed => exact absurd hstate hnotfailed

/-- An instance with a terminal template is finished once all its nodes are completed. -/
theorem Descends.finishing (h : Descends c e) {d : WorkflowDefinition}
    (hc : c.nodes = d.templates.map c.inst.nodeFor) {nodes : List WorkflowNode}
    (hlist : e.workflows.nodesOf? c.inst.id = some nodes)
    (hdone : ∀ n ∈ nodes, n.state = .completed) (hterm : ∃ t ∈ d.templates, t.terminal = true) :
    e.workflows.Finishing c.inst.id := by
  obtain ⟨listed, hlisted, -, hall⟩ := h.nodesOf?
  obtain rfl := Option.some.inj (hlisted.symm.trans hlist)
  obtain ⟨t, ht, hterminal⟩ := hterm
  have hmem : c.inst.nodeFor t ∈ c.nodes := hc ▸ List.mem_map_of_mem ht
  obtain ⟨n', hn', ho⟩ := h.nodes _ hmem
  refine ⟨_, n', hn', ?_, ?_, hdone n' (hall _ hmem n' hn')⟩
  · rw [WorkflowNode.Kin.owner_eq ho.kin]
    rfl
  · obtain ⟨_, _, _, rfl⟩ := ho.kin
    exact hterminal

theorem not_failing_of_completed {s : WorkflowStore} (hs : s.Sound) {i : InstanceId}
    {nodes : List WorkflowNode} (hlist : s.nodesOf? i = some nodes)
    (hdone : ∀ n ∈ nodes, n.state = .completed) : ¬ s.Failing i := by
  rintro ⟨id, n, hn, howner, hfailed⟩
  obtain rfl := hs.keyed id n hn
  have hmem := (hs.mem_nodesOf? hlist).mpr ⟨hn, howner⟩
  cases (hdone n hmem).symm.trans hfailed

/-! ### Runs -/

/-- Only a valid definition becomes an instance. -/
theorem validate_of_created (hf : e.workflows.faults = .none) {kind : InstanceKind}
    {d : WorkflowDefinition} {globalContext : Context}
    (hgo : (createInstance kind d globalContext).go e = (.ok c, e')) :
    ∃ order, d.validate = .ok order := by
  have h := createInstance_creating hf kind d globalContext
  rw [hgo] at h
  cases h with
  | founded hv _ _ _ => exact ⟨_, hv⟩

/-- What the instances of an engine rest on when no notifications come from outside. -/
structure Lively (e : Engine) : Prop where
  gating : e.Gating
  ruled : e.workflows.Ruled
  blamed : e.workflows.Blamed

theorem lively_ofCapacity (containers notifications : Nat) :
    (ofCapacity containers notifications).Lively where
  gating := gating_ofCapacity containers notifications
  ruled _ _ h := nomatch h
  blamed _ _ h := nomatch h

theorem Lively.perform (h : e.Lively) {op : Op} (hop : op.QueuedOnly) :
    (op.perform e).2.Lively := by
  have hs := h.gating.steady.sound
  obtain ⟨as, hcourse⟩ := exists_course h.gating.steady op
  exact ⟨h.gating.effect hop (effect_perform h.gating.steady op), hcourse.turn.ruled hs h.ruled,
    hcourse.turn.blamed hs h.ruled h.blamed⟩

/-- **No deadlock.** An instance is made of a definition whose dependencies name no outcome, and what
happens before and afterwards is any number of operations that bring no notification but the queued
ones.  If none of its nodes is failed and some node is not completed, some node is ready or in
progress.  So when no node is ready, in progress or failed, all of them are completed, and so is the
instance if the definition has a terminal template. -/
theorem no_deadlock {containers notifications : Nat} {e e₁ e' : Engine} {kind : InstanceKind}
    {d : WorkflowDefinition} {globalContext : Context} {c : Created}
    (h : Reaches (fun _ op => op.QueuedOnly) (ofCapacity containers notifications) e)
    (hgo : (createInstance kind d globalContext).go e = (.ok c, e₁))
    (hd : ∀ t ∈ d.templates, ∀ dep ∈ t.dependsOn, dep.outcome = none)
    (h' : Reaches (fun _ op => op.QueuedOnly) e₁ e') :
    ∃ nodes x, e'.workflows.nodesOf? c.inst.id = some nodes ∧
      e'.workflows.instances.get? c.inst.id = some x ∧
      ((∀ n ∈ nodes, n.state ≠ .failed) → (∃ n ∈ nodes, n.state ≠ .completed) →
        ∃ n ∈ nodes, n.state = .ready ∨ n.state = .inProgress) ∧
      ((∀ n ∈ nodes, n.state ≠ .ready ∧ n.state ≠ .inProgress ∧ n.state ≠ .failed) →
        (∀ n ∈ nodes, n.state = .completed) ∧
        ((∃ t ∈ d.templates, t.terminal = true) → x.status = .completed)) := by
  have hlively : e.Lively := h.invariant (lively_ofCapacity containers notifications)
    fun _ op hop h₁ => h₁.perform hop
  have hsteady := hlively.gating.steady
  obtain ⟨hfounded, hdrafted⟩ := (Act.ends_iff.mp
    (createInstance_ends hsteady.unfaulted hsteady.coherent kind d globalContext)).1 c e₁ hgo
  obtain ⟨order, hv⟩ := validate_of_created hsteady.unfaulted hgo
  have hstep : (Op.perform e (.create kind d globalContext)).2 = e₁ := by rw [Op.perform, hgo]
  obtain ⟨hlive, hc⟩ : e'.Lively ∧ Descends c e' := by
    refine h'.invariant (I := fun e => e.Lively ∧ Descends c e)
      ⟨hstep ▸ hlively.perform trivial, hfounded.descends⟩ fun e₂ op hop h₂ => ?_
    exact ⟨h₂.1.perform hop, h₂.2.effect (effect_perform h₂.1.gating.steady op)⟩
  have hnodes : c.nodes = d.templates.map c.inst.nodeFor := by
    rw [hdrafted]
    rfl
  obtain ⟨nodes, hlist, -, -⟩ := hc.nodesOf?
  obtain ⟨x, hx, -⟩ := owner?_eq_some hc.owner
  refine ⟨nodes, x, hlist, hx, hc.exists_at_work hlive.gating.gated hv hd hnodes hlist,
    fun hidle => ?_⟩
  have hdone : ∀ n ∈ nodes, n.state = .completed := by
    by_contra hno
    push Not at hno
    obtain ⟨n, hn, hwork⟩ := hc.exists_at_work hlive.gating.gated hv hd hnodes hlist
      (fun n hn => (hidle n hn).2.2) hno
    exact hwork.elim (hidle n hn).1 (hidle n hn).2.1
  refine ⟨hdone, fun hterm => hlive.blamed.completed hlive.ruled hx ?_ ?_⟩
  · exact hc.finishing hnodes hlist hdone hterm
  · exact not_failing_of_completed hlive.gating.steady.sound hlist hdone

/-- When the form of a permit was announced, it is not done, and it is in progress. -/
theorem no_deadlock_opened :
    ∃ nodes, opened.workflows.nodesOf? (.nth 1) = some nodes ∧
      (∃ n ∈ nodes, n.state ≠ .completed) ∧
      ∃ n ∈ nodes, n.state = .ready ∨ n.state = .inProgress := by
  obtain ⟨c, e₁, hgo, hid⟩ := exists_permit {}
  have hstates : (opened.workflows.nodesOf? (.nth 1)).map (·.map (·.state)) =
      some [.inProgress, .locked] := by cbv
  have hplain : ∀ t ∈ permit.templates, ∀ dep ∈ t.dependsOn, dep.outcome = none := by decide
  have hrun : Reaches (fun _ op => op.QueuedOnly) e₁ (Op.deliver.perform e₁).2 :=
    .step .refl .deliver trivial
  have hopened : (Op.deliver.perform e₁).2 = opened := by
    rw [opened, after, List.foldl_cons, List.foldl_cons, List.foldl_nil, Op.perform, hgo]
  rw [hopened] at hrun
  obtain ⟨nodes, x, hnodes, -, hopen, -⟩ := no_deadlock .refl hgo hplain hrun
  rw [hid] at hnodes
  rw [hnodes] at hstates
  have hmap : nodes.map (·.state) = [.inProgress, .locked] := Option.some.inj hstates
  have hmem : ∀ s, s ∈ nodes.map (·.state) ↔ s ∈ [NodeState.inProgress, .locked] := by
    rw [hmap]
    exact fun _ => Iff.rfl
  have hundone : ∃ n ∈ nodes, n.state ≠ .completed := by
    obtain ⟨n, hn, hstate⟩ := List.mem_map.mp ((hmem .locked).mpr (by decide))
    exact ⟨n, hn, by rw [hstate]; decide⟩
  refine ⟨nodes, hnodes, hundone, hopen (fun n hn hfailed => ?_) hundone⟩
  have hno := (hmem .failed).mp (List.mem_map.mpr ⟨n, hn, hfailed⟩)
  revert hno
  decide

end Engine

end Clearance
