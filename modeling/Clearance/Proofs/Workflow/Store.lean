import Clearance.Engine.Progress
import Clearance.Proofs.Tables
import Mathlib.Data.List.Nodup

/-!
# Clearance — Proofs — Workflow — Nodes and their dependencies

* `WorkflowNode.Kin`: a node in another state is the same node still.
* `WorkflowNode.satisfied_congr`, `WorkflowNode.satisfied_mono`: whether a node is satisfied depends
  on the completed ones among its prerequisites, and completing more of them keeps it satisfied.
* `WorkflowStore.Sound`: the tables of a store of workflows agree, and a dependency is on a node of
  the same instance.
* `mem_unlockable`: the dependents that a scan of an instance finds are all there are in the store.
-/

namespace Clearance

/-- What is found under the ids of nodes. -/
abbrev Lookup := NodeId → Option WorkflowNode

/-! ### A node and its states -/

namespace WorkflowNode

/-- `n'` is `n`, possibly in another state, with another extended state and another outcome. -/
def Kin (n n' : WorkflowNode) : Prop :=
  ∃ s x o, n' = { n with state := s, extendedState := x, outcome := o }

theorem Kin.refl (n : WorkflowNode) : n.Kin n := ⟨_, _, _, rfl⟩

theorem Kin.trans {n n₁ n₂ : WorkflowNode} (h₁ : n.Kin n₁) (h₂ : n₁.Kin n₂) : n.Kin n₂ := by
  obtain ⟨_, _, _, rfl⟩ := h₁
  obtain ⟨s, x, o, rfl⟩ := h₂
  exact ⟨s, x, o, rfl⟩

theorem Kin.id_eq {n n' : WorkflowNode} (h : n.Kin n') : n'.id = n.id := by
  obtain ⟨_, _, _, rfl⟩ := h
  rfl

theorem Kin.owner_eq {n n' : WorkflowNode} (h : n.Kin n') : n'.owner = n.owner := by
  obtain ⟨_, _, _, rfl⟩ := h
  rfl

theorem Kin.dependencies_eq {n n' : WorkflowNode} (h : n.Kin n') :
    n'.dependencies = n.dependencies := by
  obtain ⟨_, _, _, rfl⟩ := h
  rfl

theorem Kin.satisfied_eq {n n' : WorkflowNode} (h : n.Kin n') (look : Lookup) :
    n'.satisfied look = n.satisfied look := by
  obtain ⟨_, _, _, rfl⟩ := h
  rfl

theorem kin_advance (n : WorkflowNode) (next : NodeState) (note : Notification) :
    n.Kin (n.advance next note) :=
  ⟨_, _, _, rfl⟩

/-- What a node shows fits its state: nothing while it is locked, and an outcome only once it is
completed. -/
structure Fit (n : WorkflowNode) : Prop where
  locked : n.state = .locked → n.extendedState = none
  outcome : n.state ≠ .completed → n.outcome = none

/-- The node in the ready state. -/
def opened (n : WorkflowNode) : WorkflowNode := { n with state := .ready }

theorem kin_opened (n : WorkflowNode) : n.Kin n.opened := ⟨_, _, _, rfl⟩

end WorkflowNode

/-! ### Dependencies -/

namespace ResolvedDependency

variable {f g : Lookup} {d : ResolvedDependency}

/-- A dependency is met by a completed node only. -/
theorem completed_of_isMet (h : d.isMet f = true) :
    ∃ m, f d.nodeId = some m ∧ m.state = .completed ∧ d.isMetBy m = true := by
  unfold isMet at h
  cases hf : f d.nodeId with
  | none =>
      rw [hf] at h
      cases h
  | some m =>
      rw [hf] at h
      refine ⟨m, rfl, ?_, h⟩
      simp only [isMetBy, Bool.and_eq_true, beq_iff_eq] at h
      exact h.1

theorem isMet_of_get {m : WorkflowNode} (hg : g d.nodeId = some m) (h : d.isMetBy m = true) :
    d.isMet g = true := by
  rw [isMet, hg]
  exact h

/-- Completed nodes meet what they met if they are found as they were. -/
theorem isMet_mono (h : ∀ m, f d.nodeId = some m → m.state = .completed → g d.nodeId = some m)
    (hm : d.isMet f = true) : d.isMet g = true := by
  obtain ⟨m, hf, hc, hm⟩ := completed_of_isMet hm
  exact isMet_of_get (h m hf hc) hm

end ResolvedDependency

namespace WorkflowNode

variable {f g : Lookup} {n : WorkflowNode}

theorem satisfied_congr (h : ∀ d ∈ n.dependencies, d.isMet f = d.isMet g) :
    n.satisfied f = n.satisfied g := by
  have hall : n.dependencies.all (·.isMet f) = n.dependencies.all (·.isMet g) := by
    rw [Bool.eq_iff_iff, List.all_eq_true, List.all_eq_true]
    exact forall₂_congr fun d hd => by rw [h d hd]
  have hany : n.dependencies.any (·.isMet f) = n.dependencies.any (·.isMet g) := by
    rw [Bool.eq_iff_iff, List.any_eq_true, List.any_eq_true]
    exact exists_congr fun d => and_congr_right fun hd => by rw [h d hd]
  unfold satisfied
  cases n.unlockMode
  · rw [hall]
  · rw [hany]

theorem satisfied_mono (h : ∀ d ∈ n.dependencies, d.isMet f = true → d.isMet g = true)
    (hs : n.satisfied f = true) : n.satisfied g = true := by
  unfold satisfied at *
  rw [Bool.or_eq_true] at *
  refine hs.imp_right ?_
  cases n.unlockMode
  · simp only [List.all_eq_true]
    intro hs d hd
    exact h d hd (hs d hd)
  · simp only [List.any_eq_true]
    rintro ⟨d, hd, hm⟩
    exact ⟨d, hd, h d hd hm⟩

end WorkflowNode

/-! ### Lists of nodes -/

theorem nodeIn_eq_some {nodes : List WorkflowNode} {id : NodeId} {n : WorkflowNode}
    (h : nodeIn nodes id = some n) : n ∈ nodes ∧ n.id = id :=
  ⟨List.mem_of_find?_eq_some h, eq_of_beq (List.find?_some h :)⟩

theorem nodeIn_eq_none {nodes : List WorkflowNode} {id : NodeId} :
    nodeIn nodes id = none ↔ ∀ n ∈ nodes, n.id ≠ id := by
  rw [nodeIn, List.find?_eq_none]
  exact forall₂_congr fun n _ => by rw [beq_iff_eq]

/-- Where no two nodes share an id, a node is found by its own. -/
theorem nodeIn_of_mem {nodes : List WorkflowNode} (hd : (nodes.map (·.id)).Nodup) {n : WorkflowNode}
    (hn : n ∈ nodes) : nodeIn nodes n.id = some n := by
  cases hm : nodeIn nodes n.id with
  | none => exact absurd rfl (nodeIn_eq_none.mp hm n hn)
  | some m =>
      obtain ⟨hmem, hid⟩ := nodeIn_eq_some hm
      rw [List.inj_on_of_nodup_map hd hmem hn hid]

/-! ### The tables of the store -/

namespace WorkflowStore

/-- The owner that an instance is to its nodes. -/
def owner? (s : WorkflowStore) (i : InstanceId) : Option NodeOwner :=
  (s.instances.get? i).map fun x => ⟨x.kind, x.id⟩

/-- What the tables of a store say of each other and of the nodes. -/
structure Sound (s : WorkflowStore) : Prop where
  keyed : ∀ id n, s.nodes.get? id = some n → n.id = id
  owned : ∀ id n, s.nodes.get? id = some n → s.owner? n.owner.instanceId = some n.owner
  listed : ∀ id n, s.nodes.get? id = some n →
    ∃ ids, s.members.get? n.owner.instanceId = some ids ∧ id ∈ ids
  distinct : ∀ i ids, s.members.get? i = some ids → ids.Nodup
  stored : ∀ i ids, s.members.get? i = some ids →
    ∀ id ∈ ids, ∃ n, s.nodes.get? id = some n ∧ n.owner.instanceId = i
  peopled : ∀ i x, s.instances.get? i = some x → ∃ ids, s.members.get? i = some ids
  /-- A dependency is on a node of the same owner. -/
  inside : ∀ id n, s.nodes.get? id = some n →
    ∀ d ∈ n.dependencies, ∃ m, s.nodes.get? d.nodeId = some m ∧ m.owner = n.owner
  fit : ∀ id n, s.nodes.get? id = some n → n.Fit

theorem sound_empty : ({} : WorkflowStore).Sound where
  keyed _ _ h := nomatch h
  owned _ _ h := nomatch h
  listed _ _ h := nomatch h
  distinct _ _ h := nomatch h
  stored _ _ h := nomatch h
  peopled _ _ h := nomatch h
  inside _ _ h := nomatch h
  fit _ _ h := nomatch h

/-- `s'` has the instances of `s`, up to their contexts and statuses, and the nodes `look` finds. -/
structure Becomes (s s' : WorkflowStore) (look : Lookup) : Prop where
  nodes : ∀ id, s'.nodes.get? id = look id
  members : s'.members = s.members
  owner : ∀ i, s'.owner? i = s.owner? i
  faults : s'.faults = s.faults

theorem Becomes.peopled {s s' : WorkflowStore} {look : Lookup}
    (h : s.Becomes s' look) {i : InstanceId} {x : WorkflowInstance}
    (hx : s'.instances.get? i = some x) : ∃ y, s.instances.get? i = some y := by
  have ho := h.owner i
  rw [owner?, owner?, hx] at ho
  cases hy : s.instances.get? i with
  | none =>
      rw [hy] at ho
      cases ho
  | some y => exact ⟨y, rfl⟩

theorem Sound.becomes {s s' : WorkflowStore} {look : Lookup} (h : s.Sound)
    (b : s.Becomes s' look)
    (hold : ∀ id n', look id = some n' → n'.Fit ∧ ∃ n, s.nodes.get? id = some n ∧ n.Kin n')
    (hnew : ∀ id n, s.nodes.get? id = some n → ∃ n', look id = some n' ∧ n.Kin n') : s'.Sound where
  keyed id n' hn := by
    obtain ⟨-, n, hn, hk⟩ := hold id n' (b.nodes id ▸ hn)
    exact hk.id_eq.trans (h.keyed id n hn)
  owned id n' hn' := by
    obtain ⟨-, n, hn, _, _, _, rfl⟩ := hold id n' (b.nodes id ▸ hn')
    exact (b.owner _).trans (h.owned id n hn)
  listed id n' hn' := by
    obtain ⟨-, n, hn, _, _, _, rfl⟩ := hold id n' (b.nodes id ▸ hn')
    rw [b.members]
    exact h.listed id n hn
  distinct i ids hi := h.distinct i ids (b.members ▸ hi)
  stored i ids hi id hid := by
    obtain ⟨n, hn, ho⟩ := h.stored i ids (b.members ▸ hi) id hid
    obtain ⟨n', hn', _, _, _, rfl⟩ := hnew id n hn
    exact ⟨_, (b.nodes id).trans hn', ho⟩
  peopled i x hx := by
    obtain ⟨y, hy⟩ := b.peopled hx
    rw [b.members]
    exact h.peopled i y hy
  inside id n' hn' d hd := by
    obtain ⟨-, n, hn, _, _, _, rfl⟩ := hold id n' (b.nodes id ▸ hn')
    obtain ⟨m, hm, ho⟩ := h.inside id n hn d hd
    obtain ⟨m', hm', _, _, _, rfl⟩ := hnew _ m hm
    exact ⟨_, (b.nodes _).trans hm', ho⟩
  fit id n' hn := (hold id n' (b.nodes id ▸ hn)).1

/-! ### Committing an instance -/

theorem get?_commit {s : WorkflowStore} {i : WorkflowInstance} {nodes : List WorkflowNode}
    (hd : (nodes.map (·.id)).Nodup) (id : NodeId) :
    (s.commit i nodes).nodes.get? id = (nodeIn nodes id).or (s.nodes.get? id) :=
  Table.get?_foldl_insert _ hd _ _

/-- Without a conflict the instance and the ids of its nodes are new. -/
theorem new_of_conflict? {s : WorkflowStore} {i : WorkflowInstance} {nodes : List WorkflowNode}
    (h : s.conflict? i nodes = none) :
    s.instances.get? i.id = none ∧ ∀ n ∈ nodes, s.nodes.get? n.id = none := by
  unfold conflict? at h
  split at h
  · cases h
  · rename_i hi
    refine ⟨Table.contains_eq_false.mp (Bool.not_eq_true _ ▸ hi), fun n hn => ?_⟩
    rw [Option.map_eq_none_iff, List.find?_eq_none] at h
    exact Table.contains_eq_false.mp (Bool.not_eq_true _ ▸ h n hn)

section Commit

variable {s : WorkflowStore} {i : WorkflowInstance} {nodes : List WorkflowNode}

/-- A committed store finds the nodes of the new instance and those it had. -/
theorem get?_commit_eq_some (hc : s.conflict? i nodes = none) (hd : (nodes.map (·.id)).Nodup)
    {id : NodeId} {n : WorkflowNode} :
    (s.commit i nodes).nodes.get? id = some n ↔
      n ∈ nodes ∧ n.id = id ∨ s.nodes.get? id = some n := by
  rw [get?_commit hd]
  cases hm : nodeIn nodes id with
  | none =>
      refine ⟨.inr, ?_⟩
      rintro (⟨hn, hid⟩ | h)
      · exact absurd hid (nodeIn_eq_none.mp hm n hn)
      · exact h
  | some m =>
      obtain ⟨hmem, rfl⟩ := nodeIn_eq_some hm
      refine ⟨fun h => .inl ?_, ?_⟩
      · obtain rfl := Option.some.inj h
        exact ⟨hmem, rfl⟩
      · rintro (⟨hn, hid⟩ | h)
        · rw [List.inj_on_of_nodup_map hd hn hmem hid]
          rfl
        · exact nomatch ((new_of_conflict? hc).2 m hmem).symm.trans h

theorem owner?_commit (hc : s.conflict? i nodes = none) {k : InstanceId} {o : NodeOwner}
    (h : s.owner? k = some o) : (s.commit i nodes).owner? k = some o ∧ k ≠ i.id := by
  have hne : k ≠ i.id := by
    rintro rfl
    rw [owner?, (new_of_conflict? hc).1] at h
    cases h
  refine ⟨?_, hne⟩
  rw [owner?, show (s.commit i nodes).instances.get? k = s.instances.get? k from
    Table.get?_insert_ne _ _ hne]
  exact h

theorem owner?_commit_self : (s.commit i nodes).owner? i.id = some ⟨i.kind, i.id⟩ := by
  rw [owner?, show (s.commit i nodes).instances.get? i.id = some i from
    Table.get?_insert_self _ _ _]
  rfl

theorem members_commit_self : (s.commit i nodes).members.get? i.id = some (nodes.map (·.id)) :=
  Table.get?_insert_self _ _ _

theorem members_commit_ne {k : InstanceId} (hk : k ≠ i.id) :
    (s.commit i nodes).members.get? k = s.members.get? k :=
  Table.get?_insert_ne _ _ hk

/-- A commit without conflict of nodes that fit together keeps the store sound. -/
theorem Sound.commit (h : s.Sound) (hc : s.conflict? i nodes = none) (hd : (nodes.map (·.id)).Nodup)
    (howner : ∀ n ∈ nodes, n.owner = ⟨i.kind, i.id⟩)
    (hinside : ∀ n ∈ nodes, ∀ d ∈ n.dependencies, ∃ m ∈ nodes, m.id = d.nodeId)
    (hfit : ∀ n ∈ nodes, n.Fit) : (s.commit i nodes).Sound where
  keyed id n hn := by
    rcases (get?_commit_eq_some hc hd).mp hn with ⟨-, hid⟩ | hn
    · exact hid
    · exact h.keyed id n hn
  owned id n hn := by
    rcases (get?_commit_eq_some hc hd).mp hn with ⟨hn, -⟩ | hn
    · rw [howner n hn]
      exact owner?_commit_self
    · exact (owner?_commit hc (h.owned id n hn)).1
  listed id n hn := by
    rcases (get?_commit_eq_some hc hd).mp hn with ⟨hnew, rfl⟩ | hn
    · rw [howner n hnew]
      exact ⟨_, members_commit_self, List.mem_map_of_mem hnew⟩
    · rw [members_commit_ne (owner?_commit hc (h.owned id n hn)).2]
      exact h.listed id n hn
  distinct k ids hk := by
    by_cases hki : k = i.id
    · subst hki
      obtain rfl := Option.some.inj (members_commit_self.symm.trans hk)
      exact hd
    · exact h.distinct k ids ((members_commit_ne hki).symm.trans hk)
  stored k ids hk id hid := by
    by_cases hki : k = i.id
    · subst hki
      obtain rfl := Option.some.inj (members_commit_self.symm.trans hk)
      obtain ⟨n, hn, rfl⟩ := List.mem_map.mp hid
      exact ⟨n, (get?_commit_eq_some hc hd).mpr (.inl ⟨hn, rfl⟩), by rw [howner n hn]⟩
    · obtain ⟨n, hn, ho⟩ := h.stored k ids ((members_commit_ne hki).symm.trans hk) id hid
      exact ⟨n, (get?_commit_eq_some hc hd).mpr (.inr hn), ho⟩
  peopled k x hx := by
    by_cases hki : k = i.id
    · exact ⟨_, hki ▸ members_commit_self⟩
    · rw [members_commit_ne hki]
      exact h.peopled k x ((Table.get?_insert_ne _ _ hki).symm.trans hx)
  inside id n hn d hdep := by
    rcases (get?_commit_eq_some hc hd).mp hn with ⟨hn, -⟩ | hn
    · obtain ⟨m, hm, hid⟩ := hinside n hn d hdep
      refine ⟨m, (get?_commit_eq_some hc hd).mpr (.inl ⟨hm, hid⟩), ?_⟩
      exact (howner m hm).trans (howner n hn).symm
    · obtain ⟨m, hm, ho⟩ := h.inside id n hn d hdep
      exact ⟨m, (get?_commit_eq_some hc hd).mpr (.inr hm), ho⟩
  fit id n hn := by
    rcases (get?_commit_eq_some hc hd).mp hn with ⟨hn, -⟩ | hn
    · exact hfit n hn
    · exact h.fit id n hn

end Commit

/-! ### The nodes of an instance -/

section Instance

variable {s : WorkflowStore} {i : InstanceId} {nodes : List WorkflowNode}

theorem exists_nodesOf? {ids : List NodeId} (h : s.members.get? i = some ids) :
    ∃ nodes, s.nodesOf? i = some nodes := by
  rw [nodesOf?, h]
  exact ⟨_, rfl⟩

/-- The nodes of an instance are those of the store that it owns. -/
theorem Sound.mem_nodesOf? (h : s.Sound) (hn : s.nodesOf? i = some nodes) {n : WorkflowNode} :
    n ∈ nodes ↔ s.nodes.get? n.id = some n ∧ n.owner.instanceId = i := by
  obtain ⟨ids, hids, rfl⟩ := Option.map_eq_some_iff.mp hn
  rw [List.mem_filterMap]
  constructor
  · rintro ⟨id, hid, hget⟩
    obtain rfl := h.keyed id n hget
    obtain ⟨m, hm, ho⟩ := h.stored i ids hids _ hid
    obtain rfl := Option.some.inj (hget.symm.trans hm)
    exact ⟨hget, ho⟩
  · rintro ⟨hget, rfl⟩
    obtain ⟨ids', hids', hid⟩ := h.listed _ n hget
    obtain rfl := Option.some.inj (hids.symm.trans hids')
    exact ⟨_, hid, hget⟩

theorem Sound.nodup_nodesOf? (h : s.Sound) (hn : s.nodesOf? i = some nodes) :
    (nodes.map (·.id)).Nodup := by
  obtain ⟨ids, hids, rfl⟩ := Option.map_eq_some_iff.mp hn
  have hsub : ((ids.filterMap s.nodes.get?).map (·.id)).Sublist ids := by
    clear hids hn
    induction ids with
    | nil => exact .slnil
    | cons id rest ih =>
        rw [List.filterMap_cons]
        cases hid : s.nodes.get? id with
        | none => exact ih.cons id
        | some n =>
            rw [List.map_cons, h.keyed id n hid]
            exact ih.cons_cons id
  exact hsub.nodup (h.distinct i ids hids)

/-- Within an instance, its nodes are found as they are in the store. -/
theorem Sound.nodeIn_nodesOf? (h : s.Sound) (hn : s.nodesOf? i = some nodes) {id : NodeId}
    {m : WorkflowNode} (hm : s.nodes.get? id = some m) (ho : m.owner.instanceId = i) :
    nodeIn nodes id = some m := by
  obtain rfl := h.keyed id m hm
  exact nodeIn_of_mem (h.nodup_nodesOf? hn) ((h.mem_nodesOf? hn).mpr ⟨hm, ho⟩)

/-- A node is satisfied by its instance if it is by the whole store. -/
theorem Sound.satisfied_nodesOf? (h : s.Sound) (hn : s.nodesOf? i = some nodes) {n : WorkflowNode}
    (hmem : n ∈ nodes) : n.satisfied (nodeIn nodes) = n.satisfied s.nodes.get? := by
  obtain ⟨hget, ho⟩ := (h.mem_nodesOf? hn).mp hmem
  refine WorkflowNode.satisfied_congr fun d hd => ?_
  obtain ⟨m, hm, hmo⟩ := h.inside n.id n hget d hd
  rw [ResolvedDependency.isMet, ResolvedDependency.isMet, hm,
    h.nodeIn_nodesOf? hn hm (hmo ▸ ho)]

end Instance

end WorkflowStore

/-! ### Unlocking -/

/-- Whether the node is unlocked when `id` completes. -/
def WorkflowNode.opensOn (look : Lookup) (id : NodeId) (n : WorkflowNode) :
    Bool :=
  n.state == .locked && n.dependsOn id && n.satisfied look

theorem eraseDupsBy_of_nodup {nodes : List WorkflowNode} (hd : (nodes.map (·.id)).Nodup) :
    nodes.eraseDupsBy (fun a b => a.id == b.id) = nodes :=
  eraseDupsBy_of_pairwise <|
    (List.pairwise_map.mp hd).imp fun h => beq_eq_false_iff_ne.mpr h.symm

theorem nodup_unlockable {nodes : List WorkflowNode} (hd : (nodes.map (·.id)).Nodup) (id : NodeId) :
    ((unlockable nodes id).map (·.id)).Nodup := by
  rw [unlockable, eraseDupsBy_of_nodup hd]
  refine ((List.mergeSort_perm _ _).map _).nodup_iff.mpr ?_
  exact (List.filter_sublist.map _).nodup hd

namespace WorkflowStore

variable {s : WorkflowStore} {nodes : List WorkflowNode}

/-- The scan of an instance finds the dependents that `m` unlocks, whatever instance they are in. -/
theorem Sound.mem_unlockable (h : s.Sound) {m : WorkflowNode} (hm : s.nodes.get? m.id = some m)
    (hn : s.nodesOf? m.owner.instanceId = some nodes) {n : WorkflowNode} :
    n ∈ unlockable nodes m.id ↔
      s.nodes.get? n.id = some n ∧ n.opensOn s.nodes.get? m.id = true := by
  rw [unlockable, eraseDupsBy_of_nodup (h.nodup_nodesOf? hn), List.mem_mergeSort, List.mem_filter]
  constructor
  · rintro ⟨hmem, hopen⟩
    rw [h.satisfied_nodesOf? hn hmem] at hopen
    exact ⟨((h.mem_nodesOf? hn).mp hmem).1, hopen⟩
  · rintro ⟨hget, hopen⟩
    have hdep : n.dependsOn m.id = true := by
      simp only [WorkflowNode.opensOn, Bool.and_eq_true] at hopen
      exact hopen.1.2
    -- a dependent of `m` has the owner of `m`, so the scan comes across it
    obtain ⟨d, hd, hid⟩ := List.any_eq_true.mp hdep
    obtain ⟨m', hm', ho⟩ := h.inside n.id n hget d hd
    rw [eq_of_beq hid] at hm'
    obtain rfl := Option.some.inj (hm.symm.trans hm')
    have hmem : n ∈ nodes := (h.mem_nodesOf? hn).mpr ⟨hget, by rw [ho]⟩
    rw [h.satisfied_nodesOf? hn hmem]
    exact ⟨hmem, hopen⟩

/-- A node is among them exactly if it opens on `m`. -/
theorem Sound.mem_ids_unlockable (h : s.Sound) {m : WorkflowNode} (hm : s.nodes.get? m.id = some m)
    (hn : s.nodesOf? m.owner.instanceId = some nodes) {id : NodeId} {n : WorkflowNode}
    (hget : s.nodes.get? id = some n) :
    id ∈ (unlockable nodes m.id).map (·.id) ↔ n.opensOn s.nodes.get? m.id = true := by
  rw [List.mem_map]
  constructor
  · rintro ⟨k, hk, rfl⟩
    obtain ⟨hget', hopen⟩ := (h.mem_unlockable hm hn).mp hk
    obtain rfl := Option.some.inj (hget.symm.trans hget')
    exact hopen
  · intro hopen
    obtain rfl := h.keyed id n hget
    exact ⟨n, (h.mem_unlockable hm hn).mpr ⟨hget, hopen⟩, rfl⟩

end WorkflowStore

end Clearance
