import Clearance.Proofs.Workflow.Settle

/-!
# Clearance — Proofs — Workflow — What one instance sees of the store

All instances share the tables of a store.  Still a notification changes only what belongs to the
instance of its node, and what it changes there depends on nothing else.

* `WorkflowStore.Shares`: two stores have the same of one instance.
* `WorkflowStore.Sound.shares_settle`: a node that took a notification leaves the other instances as
  they were.
* `WorkflowStore.Shares.unlockedBy_eq`, `WorkflowStore.Shares.settle`: in stores that share the
  instance of the node, it unlocks the same dependents and they share the instance afterwards.
* `WorkflowStore.eq_of_shares`: stores of the same outline that share every instance are equal.
-/

namespace Clearance

namespace WorkflowStore

/-- The stores have the same of the instance `i`: its record, the ids of its nodes and the nodes. -/
structure Shares (i : InstanceId) (s t : WorkflowStore) : Prop where
  inst : t.instances.get? i = s.instances.get? i
  members : t.members.get? i = s.members.get? i
  nodes : ∀ ids, s.members.get? i = some ids → ∀ id ∈ ids, t.nodes.get? id = s.nodes.get? id

namespace Shares

variable {i : InstanceId} {s t u : WorkflowStore}

theorem symm (h : s.Shares i t) : t.Shares i s where
  inst := h.inst.symm
  members := h.members.symm
  nodes ids hids id hid := (h.nodes ids (h.members ▸ hids) id hid).symm

theorem trans (h : s.Shares i t) (k : t.Shares i u) : s.Shares i u where
  inst := k.inst.trans h.inst
  members := k.members.trans h.members
  nodes ids hids id hid :=
    (k.nodes ids (h.members.trans hids) id hid).trans (h.nodes ids hids id hid)

/-- A node of the instance is found in both stores. -/
theorem get? (h : s.Shares i t) (hs : s.Sound) {id : NodeId} {n : WorkflowNode}
    (hn : s.nodes.get? id = some n) (ho : n.owner.instanceId = i) : t.nodes.get? id = some n := by
  obtain ⟨ids, hids, hid⟩ := hs.listed id n hn
  exact (h.nodes ids (ho ▸ hids) id hid).trans hn

theorem nodesOf?_eq (h : s.Shares i t) : t.nodesOf? i = s.nodesOf? i := by
  rw [nodesOf?, nodesOf?, h.members]
  cases hids : s.members.get? i with
  | none => rfl
  | some ids => exact congrArg some (List.filterMap_congr fun id hid => h.nodes ids hids id hid)

/-- A node that is put in its place in both stores. -/
theorem place (h : s.Shares i t) (m : WorkflowNode) : (s.place m).Shares i (t.place m) where
  inst := h.inst
  members := h.members
  nodes ids hids id hid := by
    rw [(t.becomes_place m).nodes, (s.becomes_place m).nodes, Lookup.put, Lookup.put,
      h.nodes ids hids id hid]

/-- A node unlocks the dependents that are in its instance, whatever else the store holds. -/
theorem unlockedBy_eq {m : WorkflowNode} (h : s.Shares m.owner.instanceId t) :
    t.unlockedBy m = s.unlockedBy m := by
  rw [unlockedBy, unlockedBy, (h.place m).nodesOf?_eq]

end Shares

section Settle

variable {s t : WorkflowStore} {n m : WorkflowNode} {x : WorkflowInstance}

/-- **Untouched.** What a notification does to the instance of its node shows in no other. -/
theorem Sound.shares_settle (h : s.Sound) (hn : s.nodes.get? m.id = some n) (hm : n.Onward m)
    (hfit : m.Fit) (hx : s.instances.get? x.id = some x) (hid : x.id = m.owner.instanceId)
    (note : Notification) {j : InstanceId} (hj : j ≠ m.owner.instanceId) :
    s.Shares j (s.settle note m x) where
  inst := Table.get?_insert_ne _ _ (hid ▸ hj)
  members := rfl
  nodes ids hids id hmem := by
    obtain ⟨k, hk, ho⟩ := h.stored j ids hids id hmem
    have hne : id ≠ m.id := by
      rintro rfl
      obtain rfl := Option.some.inj (hn.symm.trans hk)
      exact hj (ho.symm.trans (congrArg (·.instanceId) hm.kin.owner_eq.symm))
    rw [(h.becomes_settle hn hm hfit hx note).nodes, Lookup.advance_ne hne, hk]
    refine congrArg some (if_neg fun hopen => hj ?_)
    -- a dependent of `m` has the owner of `m`
    obtain ⟨d, hd, hdid⟩ := List.any_eq_true.mp (WorkflowNode.opensOn_iff.mp hopen.2).2.1
    obtain ⟨n', hn', hsame⟩ := h.inside id k hk d hd
    rw [eq_of_beq hdid] at hn'
    obtain rfl := Option.some.inj (hn.symm.trans hn')
    rw [← ho, ← hsame, hm.kin.owner_eq]

/-- Stores that share the instance of a node share it once the node took a notification. -/
theorem Shares.settle (h : s.Shares m.owner.instanceId t) (hs : s.Sound) (ht : t.Sound)
    (hn : s.nodes.get? m.id = some n) (hm : n.Onward m) (hfit : m.Fit)
    (hx : s.instances.get? x.id = some x) (hid : x.id = m.owner.instanceId) (note : Notification) :
    (s.settle note m x).Shares m.owner.instanceId (t.settle note m x) where
  inst := by
    rw [← hid]
    exact (Table.get?_insert_self _ _ _).trans (Table.get?_insert_self _ _ _).symm
  members := h.members
  nodes ids hids id hmem := by
    have hn' := h.get? hs hn (congrArg (·.instanceId) hm.kin.owner_eq.symm)
    have hx' : t.instances.get? x.id = some x := by rw [hid, h.inst, ← hid, hx]
    have hin : ∀ k ∈ s.unlockedBy m, (s.place m).nodes.get? k.id = some k := by
      intro k hk
      rw [(s.becomes_place m).nodes]
      exact ((hs.mem_unlockedBy hn hm hfit).mp hk).2.1
    have hin' : ∀ k ∈ s.unlockedBy m, (t.place m).nodes.get? k.id = some k := by
      intro k hk
      rw [(t.becomes_place m).nodes]
      exact ((ht.mem_unlockedBy hn' hm hfit).mp (h.unlockedBy_eq ▸ hk)).2.1
    have hd := hs.nodup_unlockedBy hn hm hfit
    rw [WorkflowStore.settle, WorkflowStore.settle, h.unlockedBy_eq]
    dsimp only
    rw [get?_foldl_opened hd hin, get?_foldl_opened hd hin',
      (h.place m).nodes ids hids id hmem]

/-! ### The outline of a store -/

/-- The stores have the same instances, with the same nodes, in the same order. -/
structure SameOutline (s t : WorkflowStore) : Prop where
  instances : t.instances.keys = s.instances.keys
  nodes : t.nodes.keys = s.nodes.keys
  members : t.members = s.members
  faults : t.faults = s.faults

theorem SameOutline.trans {u : WorkflowStore} (h : s.SameOutline t) (k : t.SameOutline u) :
    s.SameOutline u :=
  ⟨k.instances.trans h.instances, k.nodes.trans h.nodes, k.members.trans h.members,
    k.faults.trans h.faults⟩

theorem SameOutline.symm (h : s.SameOutline t) : t.SameOutline s :=
  ⟨h.instances.symm, h.nodes.symm, h.members.symm, h.faults.symm⟩

theorem keys_foldl_insert {l : List WorkflowNode} {t : Table NodeId WorkflowNode}
    (h : ∀ k ∈ l, ∃ x, t.get? k.id = some x) :
    (l.foldl (fun t n => t.insert n.id n) t).keys = t.keys := by
  induction l generalizing t with
  | nil => rfl
  | cons k rest ih =>
      obtain ⟨⟨x, hx⟩, hrest⟩ := List.forall_mem_cons.mp h
      refine (ih fun j hj => ?_).trans (Table.keys_insert hx k)
      rw [Table.get?_insert]
      split
      · exact ⟨_, rfl⟩
      · exact hrest j hj

/-- A notification replaces what is there. -/
theorem Sound.sameOutline_settle (h : s.Sound) (hn : s.nodes.get? m.id = some n) (hm : n.Onward m)
    (hfit : m.Fit) (hx : s.instances.get? x.id = some x) (note : Notification) :
    s.SameOutline (s.settle note m x) where
  instances := Table.keys_insert hx _
  nodes := by
    refine (keys_foldl_insert fun k hk => ?_).trans (Table.keys_insert hn m)
    obtain ⟨j, hj, rfl⟩ := List.mem_map.mp hk
    rw [(s.becomes_place m).nodes]
    exact ⟨j, ((h.mem_unlockedBy hn hm hfit).mp hj).2.1⟩
  members := rfl
  faults := rfl

/-- **The whole is its instances.** Sound stores of the same outline that share every instance hold
the same. -/
theorem Sound.eq_of_shares (h : s.Sound) (ht : t.Sound) (ho : s.SameOutline t)
    (hall : ∀ i, s.Shares i t) :
    t.instances = s.instances ∧ t.nodes = s.nodes ∧ t.members = s.members ∧
      t.faults = s.faults := by
  refine ⟨Table.ext_keys ho.instances fun i => (hall i).inst, Table.ext_keys ho.nodes fun id => ?_,
    ho.members, ho.faults⟩
  cases hn : s.nodes.get? id with
  | some n => exact (hall _).get? h hn rfl
  | none =>
      rw [Option.eq_none_iff_forall_ne_some]
      exact fun n hn' => nomatch hn.symm.trans ((hall _).symm.get? ht hn' rfl)

end Settle

end WorkflowStore

end Clearance
