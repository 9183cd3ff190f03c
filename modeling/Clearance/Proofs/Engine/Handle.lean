import Clearance.Proofs.Task.Workshop
import Clearance.Proofs.Workflow.Settle

/-!
# Clearance — Proofs — Engine — Handling a notification

* `Engine.Handled`: how the handling of a notification ends.  It is refused before anything is
  written, or carried out: the store of workflows is settled, and then the dependents that were
  unlocked are activated.
* `Engine.handle_handled`: every notification is handled so.
* `Engine.handle_ends`: what that is to the nodes and the tasks, without the order of the steps.
-/

namespace Clearance

theorem Metrics.add_record (m : Metrics) (k : MetricKind) (n : Nat) :
    (m.record k).add n k = m.add (n + 1) k := by
  cases k <;> simp only [record, add, Nat.add_assoc, Nat.add_comm 1 n]

/-- The activations of the dependents that `m` unlocks, with the context their instance has then. -/
def WorkflowStore.registrations (s : WorkflowStore) (note : Notification) (m : WorkflowNode)
    (x : WorkflowInstance) : List Activation :=
  (s.unlockedBy m).map (·.activation (x.take note m).globalContext)

namespace Engine

open WorkflowStore Workshop

/-- The node `n` of the engine takes the notification and becomes `m`. -/
structure Takes (e : Engine) (note : Notification) (n m : WorkflowNode) : Prop where
  node : note.nodeId = m.id
  found : e.workflows.nodes.get? m.id = some n
  taken : n.take? note = some m

theorem Takes.of_found {e : Engine} {note : Notification} {n m : WorkflowNode}
    (hs : e.workflows.Sound) (hn : e.workflows.nodes.get? note.nodeId = some n)
    (ht : n.take? note = some m) : e.Takes note n m := by
  have hid : note.nodeId = m.id :=
    (hs.keyed _ n hn).symm.trans (WorkflowNode.onward_of_take? ht).kin.id_eq.symm
  exact ⟨hid, hid ▸ hn, ht⟩

theorem Takes.onward {e : Engine} {note : Notification} {n m : WorkflowNode}
    (h : e.Takes note n m) : n.Onward m :=
  WorkflowNode.onward_of_take? h.taken

theorem Takes.fit {e : Engine} {note : Notification} {n m : WorkflowNode} (h : e.Takes note n m)
    (hs : e.workflows.Sound) : m.Fit :=
  WorkflowNode.fit_of_take? (hs.fit _ n h.found) h.taken

/-- Settled, the store finds the node as it has become, and the dependents that this unlocks ready. -/
theorem Takes.becomes {e : Engine} {note : Notification} {n m : WorkflowNode} {x : WorkflowInstance}
    (h : e.Takes note n m) (hs : e.workflows.Sound)
    (hx : e.workflows.instances.get? m.owner.instanceId = some x)
    (hid : x.id = m.owner.instanceId) :
    e.workflows.Becomes (e.workflows.settle note m x) (Lookup.advance e.workflows.nodes.get? m) :=
  hs.becomes_settle h.found h.onward (h.fit hs) (hid ▸ hx) note

theorem Takes.of_nodes {e f : Engine} {note : Notification} {n m : WorkflowNode}
    (h : e.Takes note n m) (hs : f.workflows.nodes = e.workflows.nodes) : f.Takes note n m :=
  ⟨h.node, hs ▸ h.found, h.taken⟩

/-- The engine after calls to the store of workflows that changed nothing. -/
def asked (e : Engine) (calls : Nat) : Engine :=
  { e with workflows := { e.workflows with calls := calls } }

/-- The engine once a node of the instance `x` became `m` by a notification.  The dependents that
this unlocks are ready and counted, but none of them has been activated yet. -/
def settled (e : Engine) (note : Notification) (m : WorkflowNode) (x : WorkflowInstance)
    (calls : Nat) : Engine where
  workshop := { e.workshop with
    metrics := e.workshop.metrics.add (e.workflows.unlockedBy m).length .nodeUnlocked }
  workflows := { e.workflows.settle note m x with calls := calls }
  instancesMade := e.instancesMade

/-- The engine once nodes that were unlocked have been activated. -/
def registering (e : Engine) (as : List Activation) : Engine :=
  { e with workshop := as.foldl Workshop.register e.workshop }

/-- How the handling of a notification ends.  It is refused and nothing is written, or its node
takes it and the dependents that this unlocks are activated, in the order of their ids. -/
inductive Handled (e : Engine) (note : Notification) : Except Failure Progress → Engine → Prop
  | refused {f : Failure} {calls : Nat} (h : note.Refused e.workflows.nodes.get? f) :
      Handled e note (.error f) (e.asked calls)
  | carried {n m : WorkflowNode} {x : WorkflowInstance} {calls : Nat} (ht : e.Takes note n m)
      (hx : e.workflows.instances.get? m.owner.instanceId = some x)
      (hid : x.id = m.owner.instanceId) :
      Handled e note
        (.ok ⟨m.id, n.state, m.state, (e.workflows.unlockedBy m).map (·.id),
          x.status.after m.terminal m.state⟩)
        ((e.settled note m x calls).registering (e.workflows.registrations note m x))

/-! ### The steps of a notification -/

/-- The state a notification stands for, if it names one. -/
def projected (note : Notification) : Act Engine (Option NodeState) :=
  match note.lifecycle with
  | none => pure none
  | some text => some <$> Act.lift (project text)

/-- Ends the instance if the node that came to `next` decides it, and unlocks what the node
completes. -/
def conclude (note : Notification) (n : WorkflowNode) (i : WorkflowInstance) (next : NodeState)
    (globalContext : Context) : Act Engine Progress := do
  let status := i.status.after n.terminal next
  if status ≠ i.status then onWorkflows (WorkflowStore.setInstanceStatus i.id status)
  let unlocked ←
    if next = .completed then unlockDependents (n.advance next note) globalContext else pure []
  pure ⟨n.id, n.state, next, unlocked, status⟩

/-- What follows once the node is found and may advance to `next`. -/
def carryOut (note : Notification) (n : WorkflowNode) (i : WorkflowInstance) (next : NodeState) :
    Act Engine Progress := do
  onWorkflows (WorkflowStore.updateNode (n.advance next note))
  let globalContext ← mergedContext i note.contextUpdates
  conclude note n i next globalContext

theorem handle_eq (note : Notification) :
    handle note = (do
      let projected ← projected note
      let n ← node note.nodeId
      let i ← owningInstance n.owner
      let next := projected.getD n.state
      if n.state.canAdvanceTo next = true then carryOut note n i next
      else throw (.cannotAdvance n.id n.state next)) := by
  unfold handle projected
  cases note.lifecycle <;>
  · dsimp only
    congr 1; funext p
    congr 1; funext n
    congr 1; funext i
    cases n.state.canAdvanceTo (p.getD n.state) <;> rfl

section Steps

variable {e : Engine}

theorem onWorkflows_go {α : Type} {a : Act WorkflowStore α} {r : Except Failure α}
    {s : WorkflowStore} (h : a.go e.workflows = (r, s)) :
    (onWorkflows a).go e = (r, { e with workflows := s }) :=
  Act.go_on h

theorem onWorkshop_go {α : Type} {a : Act Workshop α} {r : Except Failure α} {w : Workshop}
    (h : a.go e.workshop = (r, w)) : (onWorkshop a).go e = (r, { e with workshop := w }) :=
  Act.go_on h

theorem projected_ends (note : Notification) :
    (projected note).Ends e
      (fun p? e' => e' = e ∧ ∀ n : WorkflowNode, note.asks n = .ok (p?.getD n.state))
      (fun f e' => e' = e ∧ ∀ n, note.asks n = .error f) := by
  unfold projected Notification.asks
  cases note.lifecycle with
  | none => exact ⟨rfl, fun _ => rfl⟩
  | some text =>
      rw [Act.ends_map, Act.ends_lift]
      dsimp only
      cases project text with
      | error f => exact ⟨rfl, fun _ => rfl⟩
      | ok next => exact ⟨rfl, fun _ => rfl⟩

theorem node_go (hf : e.workflows.faults = .none) (id : NodeId) :
    (node id).go e = (match e.workflows.nodes.get? id with
      | some n => .ok n
      | none => .error (.noNode id), { e with workflows := e.workflows.called }) := by
  refine (Act.go_bind_ok (onWorkflows_go (getNode_go hf id)) _).trans ?_
  cases e.workflows.nodes.get? id with
  | none => rfl
  | some n => rfl

theorem owningInstance_go (hf : e.workflows.faults = .none) {o : NodeOwner} {x : WorkflowInstance}
    (hx : e.workflows.instances.get? o.instanceId = some x) (hk : x.kind = o.kind) :
    (owningInstance o).go e = (.ok x, { e with workflows := e.workflows.called }) := by
  refine (Act.go_bind_ok (onWorkflows_go (getInstance_go hf o.instanceId)) _).trans ?_
  rw [hx]
  dsimp only
  rw [if_neg (fun h => h hk)]
  rfl

/-- Whatever the updates are, the context of an instance takes them. -/
theorem mergedContext_go (hf : e.workflows.faults = .none) {x : WorkflowInstance}
    (hx : e.workflows.instances.get? x.id = some x) (updates : Context) :
    ∃ calls, (mergedContext x updates).go e =
      (.ok (x.globalContext.merge updates), { e with
        workflows := { e.workflows with
          instances := e.workflows.instances.insert x.id
            { x with globalContext := x.globalContext.merge updates }
          calls := calls } }) := by
  unfold mergedContext
  split
  · rename_i hempty
    -- no update leaves the context, and so the whole instance, as it was
    have hsame : x.globalContext.merge updates = x.globalContext := by
      rw [Context.isEmpty, List.isEmpty_iff] at hempty
      rw [Context.merge, hempty]
      rfl
    refine ⟨e.workflows.calls, ?_⟩
    rw [hsame, Table.insert_of_get? hx]
    rfl
  · exact ⟨e.workflows.calls + 1, onWorkflows_go (mergeContext_go hf hx updates)⟩

/-- The nodes of a list that is in the store are stored as ready, and counted. -/
theorem markReady_go (hf : e.workflows.faults = .none) {l : List WorkflowNode}
    (hl : ∀ n ∈ l, e.workflows.nodes.contains n.id = true) :
    (markReady l).go e = (.ok (), { e with
      workflows := { e.workflows with
        nodes := (l.map WorkflowNode.opened).foldl (fun t n => t.insert n.id n) e.workflows.nodes
        calls := e.workflows.calls + l.length }
      workshop := { e.workshop with
        metrics := e.workshop.metrics.add l.length .nodeUnlocked } }) := by
  induction l generalizing e with
  | nil => simp only [markReady, Act.go_pure, List.map_nil, List.foldl_nil, List.length_nil,
      Metrics.add_zero, Nat.add_zero]
  | cons n rest ih =>
      obtain ⟨hn, hrest⟩ := List.forall_mem_cons.mp hl
      have hkeep : ∀ k ∈ rest, (e.workflows.nodes.insert n.id n.opened).contains k.id = true := by
        intro k hk
        obtain ⟨y, hy⟩ := Table.contains_iff.mp (hrest k hk)
        rw [Table.contains_iff, Table.get?_insert]
        split
        · exact ⟨_, rfl⟩
        · exact ⟨y, hy⟩
      have hput := updateNode_go (n := n.opened) hf hn
      refine (Act.go_bind_ok (onWorkflows_go hput) _).trans ?_
      refine (Act.go_bind_ok rfl _).trans ?_
      refine (ih (e := { e with
        workflows := { e.workflows.called with nodes := e.workflows.nodes.insert n.id n.opened }
        workshop := { e.workshop with metrics := e.workshop.metrics.record .nodeUnlocked } })
        hf hkeep).trans ?_
      simp only [List.map_cons, List.foldl_cons, List.length_cons, called, Metrics.add_record,
        Nat.add_assoc, Nat.add_comm 1]
      rfl

/-- Nodes are activated one after the other, whether those before succeeded or not. -/
theorem activateEach_go (globalContext : Context) (l : List WorkflowNode) :
    (activateEach globalContext l).go e =
      (.ok (), e.registering (l.map (·.activation globalContext))) := by
  induction l generalizing e with
  | nil => rfl
  | cons n rest ih =>
      obtain ⟨r, w, hinit⟩ : ∃ r w,
          (Workshop.init {} (n.activation globalContext)).go e.workshop = (r, w) := ⟨_, _, rfl⟩
      refine (Act.go_bind_ok (Act.go_attempt (onWorkshop_go hinit)) _).trans ?_
      rw [registering, List.map_cons, List.foldl_cons, register, hinit]
      cases r with
      | ok _ => exact ih
      | error _ => exact ih

variable {n m : WorkflowNode} {next : NodeState}

/-- The dependents that a node unlocks are stored as ready, and then activated. -/
theorem unlockDependents_go {s : WorkflowStore} (hs : s.Sound)
    (hn : s.nodes.get? m.id = some n) (hm : n.Onward m) (hfit : m.Fit) (hc : m.state = .completed)
    (hnodes : e.workflows.nodes = (s.place m).nodes) (hmembers : e.workflows.members = s.members)
    (hf : e.workflows.faults = .none) (globalContext : Context) :
    ∃ calls, (unlockDependents m globalContext).go e =
      (.ok ((s.unlockedBy m).map (·.id)),
        { e with
          workflows := { e.workflows with
            nodes := ((s.unlockedBy m).map WorkflowNode.opened).foldl (fun t n => t.insert n.id n)
              (s.place m).nodes
            calls := calls }
          workshop := ((s.unlockedBy m).map (·.activation globalContext)).foldl Workshop.register
            { e.workshop with
              metrics := e.workshop.metrics.add (s.unlockedBy m).length .nodeUnlocked } }) := by
  obtain ⟨nodes, hlist, hready⟩ := hs.unlockedBy_eq hn hm hfit hc
  have hlist' : e.workflows.nodesOf? m.owner.instanceId = some nodes := by
    rw [nodesOf?, hnodes, hmembers]
    exact hlist
  have hin : ∀ k ∈ s.unlockedBy m, e.workflows.called.nodes.contains k.id = true := by
    intro k hk
    refine Table.contains_iff.mpr ⟨k, ?_⟩
    rw [called, hnodes, (s.becomes_place m).nodes]
    exact ((hs.mem_unlockedBy hn hm hfit).mp hk).2.1
  refine ⟨e.workflows.calls + 1 + (s.unlockedBy m).length, ?_⟩
  refine (Act.go_bind_ok (onWorkflows_go (listNodes_go hf hlist')) _).trans ?_
  rw [← hready]
  refine (Act.go_bind_ok (markReady_go (e := { e with workflows := e.workflows.called }) hf hin)
    _).trans ?_
  refine (Act.go_bind_ok (activateEach_go _ _) _).trans ?_
  rw [called, hnodes]
  rfl

/-- Once the node that has advanced is in place and the context has the updates, the instance ends
if the node decides it, and the dependents that the node unlocks are stored as ready and
activated. -/
theorem conclude_go (note : Notification) (hs : e.workflows.Sound)
    (hf : e.workflows.faults = .none) (hn : e.workflows.nodes.get? n.id = some n)
    (hlegal : n.state.canAdvanceTo next = true) (hm : m = n.advance next note)
    (x : WorkflowInstance) (calls : Nat) :
    ∃ calls', (conclude note n x next (x.globalContext.merge note.contextUpdates)).go { e with
        workflows := { e.workflows.place m with
          instances := e.workflows.instances.insert x.id
            { x with globalContext := x.globalContext.merge note.contextUpdates }
          calls := calls } } =
      (.ok ⟨m.id, n.state, m.state, (e.workflows.unlockedBy m).map (·.id),
          x.status.after m.terminal m.state⟩,
        (e.settled note m x calls').registering (e.workflows.registrations note m x)) := by
  have hid : m.id = n.id := by rw [hm]; rfl
  have hstate : m.state = next := by rw [hm]; rfl
  have hterm : m.terminal = n.terminal := by rw [hm]; rfl
  have ho : n.Onward m := hm ▸ WorkflowNode.onward_advance hlegal note
  have hfit : m.Fit := hm ▸ WorkflowNode.fit_advance (hs.fit _ n hn) hlegal note
  -- the second half, once the instance has its status
  have hrest : ∀ (c : Nat) (k : List NodeId → Progress),
      ∃ calls', (if next = .completed then
          unlockDependents m (x.take note m).globalContext >>= fun ids => pure (k ids)
        else pure [] >>= fun ids => pure (k ids)).go { e with
          workflows := { e.workflows.place m with
            instances := e.workflows.instances.insert x.id (x.take note m)
            calls := c } } =
        (.ok (k ((e.workflows.unlockedBy m).map (·.id))),
          (e.settled note m x calls').registering (e.workflows.registrations note m x)) := by
    intro c k
    split
    · rename_i hc
      obtain ⟨calls', h⟩ := unlockDependents_go hs (hid ▸ hn) ho hfit (hstate.trans hc)
        (e := { e with workflows := { e.workflows.place m with
          instances := e.workflows.instances.insert x.id (x.take note m), calls := c } })
        rfl rfl hf (x.take note m).globalContext
      exact ⟨calls', Act.go_bind_ok h _⟩
    · rename_i hc
      have hnone : e.workflows.unlockedBy m = [] := if_neg (hstate ▸ hc)
      refine ⟨c, ?_⟩
      rw [settled, settle, registrations, hnone]
      simp only [List.map_nil, List.foldl_nil, List.length_nil, Metrics.add_zero]
      rfl
  rw [hid, hterm, hstate]
  unfold conclude
  dsimp only
  rw [← hm]
  split
  · obtain ⟨calls', h⟩ := hrest (calls + 1) fun ids =>
      ⟨n.id, n.state, next, ids, x.status.after n.terminal next⟩
    refine ⟨calls', ?_⟩
    have hset := setInstanceStatus_go (s := { e.workflows.place m with
      instances := e.workflows.instances.insert x.id
        { x with globalContext := x.globalContext.merge note.contextUpdates }
      calls := calls }) hf (Table.get?_insert_self _ _ _) (x.status.after n.terminal next)
    rw [Table.insert_insert] at hset
    refine Eq.trans (Act.go_bind_ok (onWorkflows_go hset) _) ?_
    rw [← h, WorkflowInstance.take, hterm, hstate]
    rfl
  · rename_i hsame
    obtain ⟨calls', h⟩ := hrest calls fun ids =>
      ⟨n.id, n.state, next, ids, x.status.after n.terminal next⟩
    refine ⟨calls', ?_⟩
    rw [← h, WorkflowInstance.take, hterm, hstate, of_not_not hsame]

/-- A node that may advance does so, and everything follows. -/
theorem carryOut_go (note : Notification) (hs : e.workflows.Sound)
    (hf : e.workflows.faults = .none) (hn : e.workflows.nodes.get? n.id = some n)
    (hlegal : n.state.canAdvanceTo next = true) (hm : m = n.advance next note)
    {x : WorkflowInstance} (hx : e.workflows.instances.get? x.id = some x) (calls : Nat) :
    ∃ calls', (carryOut note n x next).go (e.asked calls) =
      (.ok ⟨m.id, n.state, m.state, (e.workflows.unlockedBy m).map (·.id),
          x.status.after m.terminal m.state⟩,
        (e.settled note m x calls').registering (e.workflows.registrations note m x)) := by
  have hput := updateNode_go (s := (e.asked calls).workflows) (n := n.advance next note) hf
    (Table.contains_iff.mpr ⟨n, hn⟩)
  rw [← hm] at hput
  obtain ⟨c, hmerge⟩ := mergedContext_go (e := { e with
    workflows := { e.workflows.place m with calls := calls + 1 } }) hf hx note.contextUpdates
  obtain ⟨calls', hend⟩ := conclude_go note hs hf hn hlegal hm x c
  refine ⟨calls', ?_⟩
  rw [carryOut, ← hm]
  refine (Act.go_bind_ok (onWorkflows_go hput) _).trans ?_
  exact (Act.go_bind_ok hmerge _).trans hend

/-- **Handling.** A notification is refused, or carried out to its end. -/
theorem handle_handled (hs : e.workflows.Sound) (hf : e.workflows.faults = .none)
    (note : Notification) : Handled e note ((handle note).go e).1 ((handle note).go e).2 := by
  have hproj := projected_ends (e := e) note
  rw [handle_eq, Act.go_bind]
  revert hproj
  unfold Act.Ends
  rcases (projected note).go e with ⟨f | p?, e₀⟩
  · rintro ⟨rfl, hask⟩
    obtain ⟨text, htext, hno, rfl⟩ := Notification.asks_eq_error (hask default)
    exact .refused (.unknownLifecycle htext hno)
  · rintro ⟨rfl, hask⟩
    dsimp only
    rw [Act.go_bind, node_go hf]
    cases hn : e₀.workflows.nodes.get? note.nodeId with
    | none => exact .refused (.noNode (fun _ => Notification.named_of_asks (hask default)) hn)
    | some n =>
        have hid : n.id = note.nodeId := hs.keyed _ n hn
        obtain ⟨x, hx, hkind, hxid⟩ := owner?_eq_some (hs.owned _ n hn)
        dsimp only
        rw [Act.go_bind_ok (owningInstance_go
          (e := { e₀ with workflows := e₀.workflows.called }) hf hx hkind)]
        obtain ⟨next, hnext⟩ : ∃ next, next = p?.getD n.state := ⟨_, rfl⟩
        have hask' : note.asks n = .ok next := hnext ▸ hask n
        dsimp only
        rw [← hnext]
        split
        · rename_i hlegal
          obtain ⟨calls, hall⟩ := carryOut_go note hs hf (hid ▸ hn) hlegal rfl (hxid ▸ hx)
            (e₀.workflows.calls + 1 + 1)
          have hall' : (carryOut note n x next).go { e₀ with
            workflows := e₀.workflows.called.called } = _ := hall
          rw [hall']
          exact .carried (m := n.advance next note)
            ⟨hid.symm, hid ▸ hn, WorkflowNode.take?_eq_some.mpr ⟨next, hask', hlegal, rfl⟩⟩ hx hxid
        · rename_i hno
          exact .refused (.cannotAdvance hn hask' (Bool.not_eq_true _ ▸ hno))

end Steps

/-! ### What it is to the nodes and the tasks -/

/-- The node `m` took the place of the one it has advanced from. -/
structure Advanced (m : WorkflowNode) (e e' : Engine) : Prop where
  workflows : e.workflows.Becomes e'.workflows (Lookup.advance e.workflows.nodes.get? m)
  workshop : Served (fun id => ∃ n, e'.workflows.nodes.get? id = some n ∧ n.state ≠ .locked)
    e.workshop e'.workshop

/-- From a notification to the end of its handling, the unlocked dependents are activated. -/
theorem inits_registering (e : Engine) (note : Notification) (m : WorkflowNode)
    (x : WorkflowInstance) (calls : Nat) :
    Inits e.workshop (e.workflows.registrations note m x)
      ((e.settled note m x calls).registering (e.workflows.registrations note m x)).workshop := by
  have hcount : Inits e.workshop [] (e.settled note m x calls).workshop :=
    .counts .nil (by decide) _
  exact hcount.registers _

/-- With the dependents activated, the node has advanced. -/
theorem Takes.advanced {e : Engine} {note : Notification} {n m : WorkflowNode}
    {x : WorkflowInstance} (ht : e.Takes note n m) (hs : e.workflows.Sound)
    (hw : e.workshop.Coherent) (hx : e.workflows.instances.get? x.id = some x) (calls : Nat) :
    Advanced m e
      ((e.settled note m x calls).registering (e.workflows.registrations note m x)) := by
  have hb := hs.becomes_settle ht.found ht.onward (ht.fit hs) hx note
  refine ⟨⟨hb.nodes, hb.members, hb.owner, hb.faults⟩, ?_⟩
  refine (inits_registering e note m x calls).served hw fun a ha => ?_
  obtain ⟨k, hk, rfl⟩ := List.mem_map.mp ha
  refine ⟨k.opened, ?_, nofun⟩
  exact (hb.nodes k.id).trans (hs.advance_of_mem_unlockedBy ht.found ht.onward (ht.fit hs) hk)

/-- A notification that its node takes advances the node and its dependents.  Any other one changes
nothing. -/
theorem handle_ends {e : Engine} (hs : e.workflows.Sound) (hf : e.workflows.faults = .none)
    (hw : e.workshop.Coherent) (note : Notification) :
    (handle note).Ends e
      (fun _ e' => ∃ n m, e.Takes note n m ∧ Advanced m e e')
      (fun _ e' => (∃ calls, e' = e.asked calls) ∧
        ∀ n, e.workflows.nodes.get? note.nodeId = some n → n.take? note = none) := by
  have h := handle_handled hs hf note
  unfold Act.Ends
  revert h
  rcases (handle note).go e with ⟨_ | _, e'⟩
  · intro h
    cases h with
    | refused hr => exact ⟨⟨_, rfl⟩, fun _ => WorkflowNode.take?_of_refused hr⟩
  · intro h
    cases h with
    | carried ht hx hid => exact ⟨_, _, ht, ht.advanced hs hw (hid ▸ hx) _⟩

end Engine

end Clearance
