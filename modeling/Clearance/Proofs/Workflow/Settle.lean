import Clearance.Proofs.Workflow.Calls

/-!
# Clearance — Proofs — Workflow — A store that took a notification

* `WorkflowStore.unlockedBy`: the dependents that a node unlocks once it is in place.
* `WorkflowStore.settle`: the store once a node took a notification.  The node is in place, the
  dependents it unlocks are ready, and its instance has the context and the status that follow.
* `WorkflowStore.Sound.becomes_settle`: it finds the nodes of `Lookup.advance`.
-/

namespace Clearance

/-- The instance once one of its nodes became `m` by a notification. -/
def WorkflowInstance.take (x : WorkflowInstance) (note : Notification) (m : WorkflowNode) :
    WorkflowInstance :=
  { x with
    globalContext := x.globalContext.merge note.contextUpdates
    status := x.status.after m.terminal m.state }

namespace WorkflowStore

/-- The store with a node in the place of the one with its id. -/
def place (s : WorkflowStore) (m : WorkflowNode) : WorkflowStore :=
  { s with nodes := s.nodes.insert m.id m }

/-- The dependents that `m` unlocks once it is in place, in the order of their ids. -/
def unlockedBy (s : WorkflowStore) (m : WorkflowNode) : List WorkflowNode :=
  if m.state = .completed then
    unlockable (((s.place m).nodesOf? m.owner.instanceId).getD []) m.id
  else []

/-- The store once a node of the instance `x` became `m` by a notification. -/
def settle (s : WorkflowStore) (note : Notification) (m : WorkflowNode) (x : WorkflowInstance) :
    WorkflowStore :=
  { s with
    nodes := ((s.unlockedBy m).map WorkflowNode.opened).foldl (fun t n => t.insert n.id n)
      (s.place m).nodes
    instances := s.instances.insert x.id (x.take note m) }

variable {s : WorkflowStore} {n m : WorkflowNode}

theorem becomes_place (s : WorkflowStore) (m : WorkflowNode) :
    s.Becomes (s.place m) (Lookup.put s.nodes.get? m) :=
  ⟨fun id => Table.get?_insert s.nodes m.id id m, rfl, fun _ => rfl, rfl⟩

/-- Once a node of the store is in place, its instance can be scanned for dependents. -/
theorem Sound.unlockedBy_eq (h : s.Sound) (hn : s.nodes.get? m.id = some n) (hm : n.Onward m)
    (hfit : m.Fit) (hc : m.state = .completed) :
    ∃ nodes, (s.place m).nodesOf? m.owner.instanceId = some nodes ∧
      s.unlockedBy m = unlockable nodes m.id := by
  have hs := h.put hn hm hfit (s.becomes_place m)
  obtain ⟨ids, hids, -⟩ := hs.listed m.id m (Table.get?_insert_self _ _ _)
  obtain ⟨nodes, hnodes⟩ := exists_nodesOf? hids
  refine ⟨nodes, hnodes, ?_⟩
  rw [unlockedBy, if_pos hc, hnodes]
  rfl

theorem Sound.nodup_unlockedBy (h : s.Sound) (hn : s.nodes.get? m.id = some n) (hm : n.Onward m)
    (hfit : m.Fit) : ((s.unlockedBy m).map (·.id)).Nodup := by
  by_cases hc : m.state = .completed
  · obtain ⟨nodes, hnodes, he⟩ := h.unlockedBy_eq hn hm hfit hc
    rw [he]
    exact nodup_unlockable ((h.put hn hm hfit (s.becomes_place m)).nodup_nodesOf? hnodes) m.id
  · rw [unlockedBy, if_neg hc]
    exact .nil

/-- They are the nodes of the store that open on `m`. -/
theorem Sound.mem_unlockedBy (h : s.Sound) (hn : s.nodes.get? m.id = some n) (hm : n.Onward m)
    (hfit : m.Fit) {k : WorkflowNode} :
    k ∈ s.unlockedBy m ↔ m.state = .completed ∧ Lookup.put s.nodes.get? m k.id = some k ∧
      k.opensOn (Lookup.put s.nodes.get? m) m.id = true := by
  by_cases hc : m.state = .completed
  · obtain ⟨nodes, hnodes, he⟩ := h.unlockedBy_eq hn hm hfit hc
    have hmem := (h.put hn hm hfit (s.becomes_place m)).mem_unlockable (n := k)
      (Table.get?_insert_self _ _ _) hnodes
    rw [(s.becomes_place m).get?_eq] at hmem
    rw [he, hmem]
    exact ⟨fun hk => ⟨hc, hk⟩, fun hk => hk.2⟩
  · rw [unlockedBy, if_neg hc]
    exact ⟨nofun, fun hk => absurd hk.1 hc⟩

/-- A dependent that `m` unlocks is another node of the store, and it was locked. -/
theorem Sound.of_mem_unlockedBy (h : s.Sound) (hn : s.nodes.get? m.id = some n) (hm : n.Onward m)
    (hfit : m.Fit) {k : WorkflowNode} (hk : k ∈ s.unlockedBy m) :
    k.id ≠ m.id ∧ s.nodes.get? k.id = some k ∧ k.state = .locked := by
  obtain ⟨hc, hput, ho⟩ := (h.mem_unlockedBy hn hm hfit).mp hk
  have hl := (WorkflowNode.opensOn_iff.mp ho).1
  have hne : k.id ≠ m.id := by
    intro hid
    obtain rfl : m = k := Option.some.inj ((if_pos hid).symm.trans hput)
    rw [hc] at hl
    cases hl
  exact ⟨hne, (if_neg hne).symm.trans hput, hl⟩

theorem Sound.dependencies_of_mem_unlockedBy (h : s.Sound) (hn : s.nodes.get? m.id = some n)
    (hm : n.Onward m) (hfit : m.Fit) {k : WorkflowNode} (hk : k ∈ s.unlockedBy m) :
    k.dependencies ≠ [] := by
  obtain ⟨-, -, hopen⟩ := (h.mem_unlockedBy hn hm hfit).mp hk
  obtain ⟨d, hd, -⟩ := List.any_eq_true.mp (WorkflowNode.opensOn_iff.mp hopen).2.1
  exact List.ne_nil_of_mem hd

/-- A dependent that `m` unlocks is ready once `m` is in place. -/
theorem Sound.advance_of_mem_unlockedBy (h : s.Sound) (hn : s.nodes.get? m.id = some n)
    (hm : n.Onward m) (hfit : m.Fit) {k : WorkflowNode} (hk : k ∈ s.unlockedBy m) :
    Lookup.advance s.nodes.get? m k.id = some k.opened := by
  obtain ⟨hc, -, hopen⟩ := (h.mem_unlockedBy hn hm hfit).mp hk
  obtain ⟨hne, hget, -⟩ := h.of_mem_unlockedBy hn hm hfit hk
  rw [Lookup.advance_ne hne, hget]
  exact congrArg some (if_pos ⟨hc, hopen⟩)

/-- Unless `m` was locked, it unlocks the nodes that are not locked then and were before. -/
theorem Sound.mem_ids_unlockedBy (h : s.Sound) (hn : s.nodes.get? m.id = some n) (hm : n.Onward m)
    (hfit : m.Fit) (hl : n.state ≠ .locked) {id : NodeId} {n' : WorkflowNode}
    (hn' : Lookup.advance s.nodes.get? m id = some n') :
    id ∈ (s.unlockedBy m).map (·.id) ↔
      n'.state ≠ .locked ∧ ∀ k, s.nodes.get? id = some k → k.state = .locked := by
  rw [List.mem_map]
  constructor
  · rintro ⟨k, hk, rfl⟩
    obtain ⟨-, hget, hlocked⟩ := h.of_mem_unlockedBy hn hm hfit hk
    obtain rfl := Option.some.inj (hn'.symm.trans (h.advance_of_mem_unlockedBy hn hm hfit hk))
    refine ⟨nofun, fun k' hk' => ?_⟩
    obtain rfl := Option.some.inj (hget.symm.trans hk')
    exact hlocked
  · rintro ⟨hopen, hbefore⟩
    rcases Lookup.of_advance hn' with ⟨rfl, rfl⟩ | ⟨k, hne, hk, ⟨rfl, -⟩ | ⟨rfl, hc, hopens⟩⟩
    · exact absurd (hbefore n hn) hl
    · exact absurd (hbefore n' hk) hopen
    · obtain rfl := h.keyed id k hk
      exact ⟨k, (h.mem_unlockedBy hn hm hfit).mpr ⟨hc, (if_neg hne).trans hk, hopens⟩, rfl⟩

/-- What a store finds once nodes that it has are ready. -/
theorem get?_foldl_opened {l : List WorkflowNode} (hd : (l.map (·.id)).Nodup)
    {t : Table NodeId WorkflowNode} (hl : ∀ k ∈ l, t.get? k.id = some k) (id : NodeId) :
    ((l.map WorkflowNode.opened).foldl (fun t n => t.insert n.id n) t).get? id =
      if id ∈ l.map (·.id) then (t.get? id).map WorkflowNode.opened else t.get? id := by
  have hids : (l.map WorkflowNode.opened).map (·.id) = l.map (·.id) := by
    rw [List.map_map]
    rfl
  rw [Table.get?_foldl_insert _ (hids ▸ hd)]
  have hfind : ∀ {n}, nodeIn (l.map WorkflowNode.opened) id = some n →
      id ∈ l.map (·.id) ∧ (t.get? id).map WorkflowNode.opened = some n := by
    intro n hn
    obtain ⟨hmem, rfl⟩ := nodeIn_eq_some hn
    obtain ⟨k, hk, rfl⟩ := List.mem_map.mp hmem
    refine ⟨List.mem_map.mpr ⟨k, hk, rfl⟩, ?_⟩
    rw [show k.opened.id = k.id from rfl, hl k hk]
    rfl
  have hnode : (l.map WorkflowNode.opened).find? (fun n => decide (n.id = id)) =
      nodeIn (l.map WorkflowNode.opened) id := by
    refine congrFun (congrArg List.find? (funext fun n => ?_)) _
    rw [Bool.eq_iff_iff, decide_eq_true_iff, beq_iff_eq]
  rw [hnode]
  cases hn : nodeIn (l.map WorkflowNode.opened) id with
  | some n =>
      obtain ⟨hmem, hget⟩ := hfind hn
      rw [if_pos hmem, hget]
      rfl
  | none =>
      have hno : id ∉ l.map (·.id) := by
        intro hmem
        obtain ⟨k, hk, rfl⟩ := List.mem_map.mp hmem
        exact nodeIn_eq_none.mp hn _ (List.mem_map_of_mem hk) rfl
      rw [if_neg hno]
      rfl

/-- **Settled.** The store finds the node that took the notification, and its dependents as they
advance with it. -/
theorem Sound.becomes_settle (h : s.Sound) (hn : s.nodes.get? m.id = some n) (hm : n.Onward m)
    (hfit : m.Fit) {x : WorkflowInstance} (hx : s.instances.get? x.id = some x)
    (note : Notification) :
    s.Becomes (s.settle note m x) (Lookup.advance s.nodes.get? m) := by
  have hput : ∀ id, (s.place m).nodes.get? id = Lookup.put s.nodes.get? m id :=
    (s.becomes_place m).nodes
  have hin : ∀ k ∈ s.unlockedBy m, (s.place m).nodes.get? k.id = some k := by
    intro k hk
    rw [hput]
    exact ((h.mem_unlockedBy hn hm hfit).mp hk).2.1
  have hnodes : ∀ id, (s.settle note m x).nodes.get? id = Lookup.advance s.nodes.get? m id := by
    intro id
    refine (get?_foldl_opened (h.nodup_unlockedBy hn hm hfit) hin id).trans ?_
    rw [hput]
    by_cases hc : m.state = .completed
    · refine Lookup.put_opened hc (fun {id k} hk => ?_) id
      obtain ⟨nodes, hlist, he⟩ := h.unlockedBy_eq hn hm hfit hc
      rw [← (s.becomes_place m).get?_eq] at hk ⊢
      rw [he]
      exact (h.put hn hm hfit (s.becomes_place m)).mem_ids_unlockable
        (Table.get?_insert_self _ _ _) hlist hk
    · have hnone : s.unlockedBy m = [] := if_neg hc
      rw [hnone, Lookup.advance_eq_put hc]
      exact if_neg List.not_mem_nil
  have hb : s.Becomes { s with nodes := (s.settle note m x).nodes } _ :=
    ⟨hnodes, rfl, fun _ => rfl, rfl⟩
  exact hb.modified hx rfl rfl

end WorkflowStore

end Clearance
