import Clearance.Engine.Creation
import Clearance.Proofs.Definition.Validate
import Clearance.Proofs.Engine.Handle

/-!
# Clearance — Proofs — Engine — Creating an instance

* `Engine.Creating`: how the creation of an instance ends.
* `Engine.createInstance_creating`: every creation ends so.
* `Engine.Founded`: what a creation does that succeeds.  The nodes of the instance are new, each
  ready or locked as its dependencies are, and only tasks of the ready ones are touched.
* `Engine.createInstance_ends`: an instance is founded, or the nodes are as they were.
-/

namespace Clearance

/-- The ids of the nodes of an instance differ as the templates do. -/
theorem InstanceId.node_injective (i : InstanceId) : Function.Injective i.node := by
  intro t u h
  obtain ⟨t⟩ := t
  obtain ⟨u⟩ := u
  have htext : i.text ++ "-" ++ t = i.text ++ "-" ++ u := congrArg NodeId.text h
  rw [(String.append_right_inj _).mp htext]

/-! ### The nodes of a new instance -/

/-- The nodes that are new with an instance: of its own, with dependencies among each other, and
each ready or locked as it has dependencies or not. -/
structure Created.Well (c : Created) : Prop where
  owner : ∀ n ∈ c.nodes, n.owner = ⟨c.inst.kind, c.inst.id⟩
  distinct : (c.nodes.map (·.id)).Nodup
  inside : ∀ n ∈ c.nodes, ∀ d ∈ n.dependencies, ∃ m ∈ c.nodes, m.id = d.nodeId
  state : ∀ n ∈ c.nodes, n.state = if n.dependencies.isEmpty then .ready else .locked
  extendedState : ∀ n ∈ c.nodes, n.extendedState = none
  outcome : ∀ n ∈ c.nodes, n.outcome = none
  named : ∀ n ∈ c.nodes, ∃ t, n.id = c.inst.id.node t

theorem Created.Well.fit {c : Created} (h : c.Well) : ∀ n ∈ c.nodes, n.Fit :=
  fun n hn => ⟨fun _ => h.extendedState n hn, fun _ => h.outcome n hn⟩

/-- A new node that is not locked is ready. -/
theorem Created.Well.ready {c : Created} (h : c.Well) {n : WorkflowNode} (hn : n ∈ c.nodes)
    (hl : n.state ≠ .locked) : n.state = .ready := by
  have hstate := h.state n hn
  split at hstate
  · exact hstate
  · exact absurd hstate hl

/-- A new node that is ready has no dependencies. -/
theorem Created.Well.dependencies_of_ready {c : Created} (h : c.Well) {n : WorkflowNode}
    (hn : n ∈ c.nodes) (hready : n.state = .ready) : n.dependencies = [] := by
  have hstate := h.state n hn
  rw [hready] at hstate
  by_contra hno
  rw [if_neg (by rwa [List.isEmpty_iff])] at hstate
  cases hstate

theorem Created.Well.not_terminal {c : Created} (h : c.Well) {n : WorkflowNode} (hn : n ∈ c.nodes) :
    n.state.isTerminal = false := by
  rw [h.state n hn]
  split
  · rfl
  · rfl

/-- A valid definition makes such nodes. -/
theorem WorkflowInstance.well_nodeFor (i : WorkflowInstance) {d : WorkflowDefinition}
    {order : List TemplateId} (h : d.validate = .ok order) :
    (Created.mk i (d.templates.map i.nodeFor)).Well := by
  obtain ⟨-, hd, hknown, -, -⟩ := (WorkflowDefinition.validate_eq_ok_iff.mp h).1
  have hids : (d.templates.map i.nodeFor).map (·.id) = d.ids.map i.id.node := by
    simp [WorkflowDefinition.ids, nodeFor]
  refine ⟨?_, hids ▸ hd.map i.id.node_injective, ?_, ?_, ?_, ?_, ?_⟩ <;> dsimp only <;>
    rw [List.forall_mem_map] <;> intro t ht
  -- what remains is said of the node that `t` makes
  · rfl
  · intro e he
    obtain ⟨dep, hdep, rfl⟩ := List.mem_map.mp he
    obtain ⟨u, hu, hid⟩ := List.mem_map.mp (hknown t ht dep hdep)
    exact ⟨_, List.mem_map_of_mem hu, congrArg i.id.node hid⟩
  · simp [nodeFor]
  · rfl
  · rfl
  · exact ⟨t.id, rfl⟩

/-- The activations of the nodes that an instance starts with, in the order of their templates. -/
def Created.starts (c : Created) : List Activation :=
  (c.nodes.filter (·.state == .ready)).map (·.activation c.inst.globalContext)

theorem Created.of_mem_starts {c : Created} {a : Activation} (h : a ∈ c.starts) :
    ∃ n ∈ c.nodes, a = n.activation c.inst.globalContext ∧ n.state = .ready := by
  obtain ⟨n, hn, rfl⟩ := List.mem_map.mp h
  obtain ⟨hmem, hready⟩ := List.mem_filter.mp hn
  exact ⟨n, hmem, rfl, eq_of_beq hready⟩

/-! ### Creation -/

namespace Engine

open WorkflowStore Workshop

/-- An instance with its nodes was committed, and its ready nodes were activated. -/
structure Founded (c : Created) (e e' : Engine) : Prop where
  well : c.Well
  id : c.inst.id = .nth (e.instancesMade + 1)
  conflict : e.workflows.conflict? c.inst c.nodes = none
  workflows : e'.workflows =
    { e.workflows.commit c.inst c.nodes with calls := e.workflows.calls + 1 }
  workshop : Served (fun id => ∃ n ∈ c.nodes, n.id = id ∧ n.state ≠ .locked) e.workshop e'.workshop

/-- The engine has the new nodes and those it had. -/
theorem Founded.get?_eq_some {c : Created} {e e' : Engine} (h : Founded c e e') {id : NodeId}
    {n : WorkflowNode} :
    e'.workflows.nodes.get? id = some n ↔
      n ∈ c.nodes ∧ n.id = id ∨ e.workflows.nodes.get? id = some n := by
  rw [h.workflows]
  exact get?_commit_eq_some h.conflict h.well.distinct

/-- The instance that an engine makes of a definition next, with its nodes. -/
def drafted (e : Engine) (kind : InstanceKind) (d : WorkflowDefinition) (globalContext : Context) :
    Created :=
  let i : WorkflowInstance := ⟨.nth (e.instancesMade + 1), kind, d.name, globalContext, .active⟩
  ⟨i, d.templates.map i.nodeFor⟩

theorem well_drafted (e : Engine) (kind : InstanceKind) {d : WorkflowDefinition}
    (globalContext : Context) {order : List TemplateId} (h : d.validate = .ok order) :
    (e.drafted kind d globalContext).Well :=
  WorkflowInstance.well_nodeFor _ h

/-- The engine once it gave an id to an instance that did not come to be, with the tasks that were
activated for it. -/
def forsaken (e : Engine) (w : Workshop) : Engine where
  workshop := w
  workflows := e.workflows.called
  instancesMade := e.instancesMade + 1

/-- How the creation of an instance ends.  The definition is not valid, or the instance is there
already, or one of its starting tasks fails, or it is committed with all of them activated. -/
inductive Creating (e : Engine) (kind : InstanceKind) (d : WorkflowDefinition)
    (globalContext : Context) : Except Failure Created → Engine → Prop
  | invalid {f : DefinitionError} (h : d.validate = .error f) :
      Creating e kind d globalContext (.error (.invalidDefinition f)) e
  | conflicting {order : List TemplateId} {c : Created} {f : Failure} (h : d.validate = .ok order)
      (hd : c = e.drafted kind d globalContext)
      (hc : e.workflows.conflict? c.inst c.nodes = some f) :
      Creating e kind d globalContext (.error f) (e.forsaken e.workshop)
  | aborted {order : List TemplateId} {c : Created} {f : Failure} {w : Workshop}
      (h : d.validate = .ok order) (hd : c = e.drafted kind d globalContext)
      (hc : e.workflows.conflict? c.inst c.nodes = none)
      (hi : (initAll c.starts).go e.workshop = (.error f, w)) :
      Creating e kind d globalContext (.error f) (e.forsaken w)
  | founded {order : List TemplateId} {c : Created} {w : Workshop} (h : d.validate = .ok order)
      (hd : c = e.drafted kind d globalContext)
      (hc : e.workflows.conflict? c.inst c.nodes = none)
      (hi : (initAll c.starts).go e.workshop = (.ok (), w)) :
      Creating e kind d globalContext (.ok c)
        ⟨w, e.workflows.called.commit c.inst c.nodes, e.instancesMade + 1⟩

section Creation

variable {e : Engine}

theorem activateAll_go (globalContext : Context) (l : List WorkflowNode) :
    (activateAll globalContext l).go e =
      (((initAll (l.map (·.activation globalContext))).go e.workshop).1, { e with
        workshop := ((initAll (l.map (·.activation globalContext))).go e.workshop).2 }) := by
  induction l generalizing e with
  | nil => rfl
  | cons n rest ih =>
      obtain ⟨r, w, hinit⟩ : ∃ r w,
          (Workshop.init {} (n.activation globalContext)).go e.workshop = (r, w) := ⟨_, _, rfl⟩
      rw [activateAll, List.map_cons, initAll, Act.go_bind, Act.go_bind, onWorkshop_go hinit, hinit]
      cases r with
      | error _ => rfl
      | ok _ => exact ih

/-- Without a conflict the hook decides whether the instance is committed. -/
theorem commitAfter_go (hook : Act Engine Unit) (i : WorkflowInstance) (nodes : List WorkflowNode) :
    (commitAfter hook i nodes).go e =
      match e.workflows.conflict? i nodes with
      | some f => (.error f, e)
      | none =>
        match hook.go e with
        | (.error f, e') => (.error f, e')
        | (.ok _, e') => (.ok (), { e' with workflows := e'.workflows.commit i nodes }) := by
  have hcheck : (checkConflict i nodes).go e = (match e.workflows.conflict? i nodes with
      | some f => .error f
      | none => .ok (), e) := by
    simp only [checkConflict, onWorkflows, Act.on, Act.go_of]
    cases e.workflows.conflict? i nodes with
    | some f => rfl
    | none => rfl
  rw [commitAfter, Act.go_bind, hcheck]
  cases e.workflows.conflict? i nodes with
  | some f => rfl
  | none =>
      dsimp only
      rw [Act.go_bind]
      rcases hook.go e with ⟨_ | _, e'⟩
      · rfl
      · rfl

/-- The creation of an instance once its definition is known to be valid. -/
theorem createInstance_of_valid {kind : InstanceKind} {d : WorkflowDefinition}
    {globalContext : Context} {order : List TemplateId} (h : d.validate = .ok order) :
    createInstance kind d globalContext = (do
      let id ← freshInstanceId
      let i : WorkflowInstance := ⟨id, kind, d.name, globalContext, .active⟩
      let nodes := d.templates.map i.nodeFor
      onWorkflows (WorkflowStore.enter .createInstance)
      commitAfter (activateAll globalContext (nodes.filter (·.state == .ready))) i nodes
      pure ⟨i, nodes⟩) := by
  rw [createInstance, h]

/-- With a valid definition the id is spent and the call is made.  The instance is committed once
its starting tasks are activated. -/
theorem createInstance_go (hf : e.workflows.faults = .none) {kind : InstanceKind}
    {d : WorkflowDefinition} {globalContext : Context} {order : List TemplateId}
    (hval : d.validate = .ok order) {c : Created} (hc : c = e.drafted kind d globalContext) :
    (createInstance kind d globalContext).go e =
      match e.workflows.conflict? c.inst c.nodes with
      | some f => (.error f, e.forsaken e.workshop)
      | none =>
        match (initAll c.starts).go e.workshop with
        | (.error f, w) => (.error f, e.forsaken w)
        | (.ok _, w) =>
          (.ok c, ⟨w, e.workflows.called.commit c.inst c.nodes, e.instancesMade + 1⟩) := by
  have henter := onWorkflows_go (e := { e with instancesMade := e.instancesMade + 1 })
    (enter_go hf .createInstance)
  have hcommit : (createInstance kind d globalContext).go e = (do
      commitAfter (activateAll c.inst.globalContext (c.nodes.filter (·.state == .ready))) c.inst
        c.nodes
      pure c : Act Engine Created).go (e.forsaken e.workshop) := by
    rw [createInstance_of_valid hval, hc]
    refine Eq.trans (Act.go_bind_ok rfl _) ?_
    exact Act.go_bind_ok henter _
  rw [hcommit, Act.go_bind, commitAfter_go, activateAll_go]
  -- the store that the hook does not see has the nodes it had
  have hsame : (e.forsaken e.workshop).workflows.conflict? c.inst c.nodes =
      e.workflows.conflict? c.inst c.nodes := rfl
  rw [hsame]
  cases e.workflows.conflict? c.inst c.nodes with
  | some f => rfl
  | none =>
      dsimp only
      rw [show (c.nodes.filter _).map _ = c.starts from rfl,
        show (e.forsaken e.workshop).workshop = e.workshop from rfl]
      rcases (initAll c.starts).go e.workshop with ⟨_ | _, w⟩
      · rfl
      · rfl

/-- **Creation.** An instance is committed, or why it is not tells what was done. -/
theorem createInstance_creating (hf : e.workflows.faults = .none) (kind : InstanceKind)
    (d : WorkflowDefinition) (globalContext : Context) :
    Creating e kind d globalContext ((createInstance kind d globalContext).go e).1
      ((createInstance kind d globalContext).go e).2 := by
  cases hval : d.validate with
  | error err =>
      rw [createInstance, hval]
      exact .invalid hval
  | ok order =>
      rw [createInstance_go hf hval rfl]
      cases hc : e.workflows.conflict? (e.drafted kind d globalContext).inst
          (e.drafted kind d globalContext).nodes with
      | some f => exact .conflicting hval rfl hc
      | none =>
          rcases hi : (initAll (e.drafted kind d globalContext).starts).go e.workshop
            with ⟨f | _, w⟩
          · exact .aborted hval rfl hc hi
          · exact .founded hval rfl hc hi

/-- The creation of an instance founds it, or changes no node and touches only tasks of nodes that
do not exist. -/
theorem createInstance_ends (hf : e.workflows.faults = .none) (hw : e.workshop.Coherent)
    (kind : InstanceKind) (d : WorkflowDefinition) (globalContext : Context) :
    (createInstance kind d globalContext).Ends e
      (fun c e' => Founded c e e' ∧ c = e.drafted kind d globalContext)
      (fun _ e' => e.workflows.Becomes e'.workflows e.workflows.nodes.get? ∧
        Served (fun id => e.workflows.nodes.get? id = none) e.workshop e'.workshop) := by
  have h := createInstance_creating hf kind d globalContext
  unfold Act.Ends
  revert h
  rcases (createInstance kind d globalContext).go e with ⟨_ | c, e'⟩
  · intro h
    cases h with
    | invalid _ => exact ⟨.refl _, .refl⟩
    | conflicting _ _ _ => exact ⟨(Becomes.refl _).called, .refl⟩
    | @aborted _ c _ w _ _ hc hi =>
        refine ⟨(Becomes.refl _).called, ?_⟩
        -- nothing was committed, so the nodes that were activated are none of the store
        refine (Inits.of_initAll hi).served hw fun a ha => ?_
        obtain ⟨n, hn, rfl, -⟩ := Created.of_mem_starts ((attempted_initial _ _).subset ha)
        exact (new_of_conflict? hc).2 n hn
  · intro h
    cases h with
    | @founded _ _ w hval hd hc hi =>
        refine ⟨⟨?_, by rw [hd]; rfl, hc, rfl, (Inits.of_initAll hi).served hw fun a ha => ?_⟩, hd⟩
        · rw [hd]
          exact e.well_drafted kind globalContext hval
        · obtain ⟨n, hn, rfl, hready⟩ := Created.of_mem_starts ((attempted_initial _ _).subset ha)
          refine ⟨n, hn, rfl, ?_⟩
          rw [hready]
          decide

end Creation

end Engine

end Clearance
