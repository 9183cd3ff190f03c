import Clearance.Proofs.Workflow.Isolation
import Mathlib.Data.List.Pairwise

/-!
# Clearance — Proofs — Workflow — Notifications in any order

Different nodes take a notification each, one after the other, and nodes are unlocked as their
prerequisites complete.  What is found in the end does not depend on the order.

* `Lookup.Settles`: what is found once nodes took notifications, in terms of what was found before.
* `Lookup.Settles.advance`: one more notification.
* `Lookup.Settles.unique`: it is the same for any order of the notifications.
* `WorkflowStore.Tally`: what a store has become by notifications that came one after the other, and
  which nodes they unlocked.
* `WorkflowStore.Tally.settle`: one more notification.
-/

namespace Clearance

/-- The notification reports a lifecycle past the start. -/
def Notification.Tells (note : Notification) (l : Lifecycle) : Prop :=
  note.lifecycle = some l.text ∧ l ≠ .initialized

/-- The notifications write different keys of the context. -/
def Notification.Apart (note note' : Notification) : Prop :=
  ∀ key, note.contextUpdates.get? key = none ∨ note'.contextUpdates.get? key = none

theorem Lifecycle.text_injective {l l' : Lifecycle} (h : l.text = l'.text) : l = l' := by
  revert h
  cases l <;> cases l' <;> decide

theorem NodeState.ofLifecycle_ne_locked (l : Lifecycle) : NodeState.ofLifecycle l ≠ .locked := by
  cases l <;> exact nofun

namespace WorkflowNode

variable {n m : WorkflowNode} {note : Notification} {l : Lifecycle}

/-- A node that takes a notification of a lifecycle past the start was not locked and not at its
end. -/
theorem take?_told (h : n.take? note = some m) (hl : note.Tells l) :
    m = n.advance (.ofLifecycle l) note ∧ n.state ≠ .locked ∧ n.state ≠ .completed := by
  obtain ⟨next, hask, hlegal, rfl⟩ := take?_eq_some.mp h
  rw [Notification.asks_eq hl.1] at hask
  obtain rfl := Except.ok.inj hask
  refine ⟨rfl, fun hs => ?_, fun hs => ?_⟩
  · rw [hs] at hlegal
    revert hlegal
    cases l with
    | initialized => exact absurd rfl hl.2
    | _ => exact nofun
  · rw [hs] at hlegal
    cases l <;> cases hlegal

/-- Whether the node is locked and one of the notifications completes a prerequisite of it. -/
def promptedBy (k : WorkflowNode) (notes : List Notification) : Bool :=
  k.state == .locked && notes.any fun note =>
    note.lifecycle == some Lifecycle.completed.text && k.dependsOn note.nodeId

theorem promptedBy_iff {k : WorkflowNode} {notes : List Notification} :
    k.promptedBy notes = true ↔ k.state = .locked ∧
      ∃ note ∈ notes, note.lifecycle = some Lifecycle.completed.text ∧
        k.dependsOn note.nodeId = true := by
  simp only [promptedBy, Bool.and_eq_true, beq_iff_eq, List.any_eq_true]

theorem promptedBy_perm {k : WorkflowNode} {notes notes' : List Notification}
    (h : notes.Perm notes') : k.promptedBy notes = k.promptedBy notes' := by
  rw [Bool.eq_iff_iff, promptedBy_iff, promptedBy_iff]
  simp only [h.mem_iff]

/-- With one more notification, a node is prompted if it was before or by this one. -/
theorem promptedBy_snoc {k : WorkflowNode} {notes : List Notification} (hl : note.Tells l)
    (hm : m.state = .ofLifecycle l) (hid : note.nodeId = m.id) :
    k.promptedBy (notes ++ [note]) = true ↔ k.promptedBy notes = true ∨
      k.state = .locked ∧ m.state = .completed ∧ k.dependsOn m.id = true := by
  have hcompletes : note.lifecycle = some Lifecycle.completed.text ↔ m.state = .completed := by
    rw [hl.1, hm]
    cases l <;> decide
  simp only [promptedBy_iff, List.mem_append, List.mem_singleton]
  constructor
  · rintro ⟨hs, note', hmem | rfl, hc, hd⟩
    · exact .inl ⟨hs, note', hmem, hc, hd⟩
    · exact .inr ⟨hs, hcompletes.mp hc, hid ▸ hd⟩
  · rintro (⟨hs, note', hmem, hc, hd⟩ | ⟨hs, hc, hd⟩)
    · exact ⟨hs, note', .inl hmem, hc, hd⟩
    · exact ⟨hs, note, .inr rfl, hcompletes.mpr hc, hid ▸ hd⟩

end WorkflowNode

/-! ### What is found in the end -/

namespace Lookup

/-- What is found once nodes took the notifications: a node that took one is as this one says, and
any other is open now if it was locked, one of them completed a prerequisite of it, and it is
satisfied. -/
structure Settles (look₀ : Lookup) (notes : List Notification) (look : Lookup) : Prop where
  told : ∀ note ∈ notes, ∃ n l, look₀ note.nodeId = some n ∧ note.Tells l ∧
    look note.nodeId = some (n.advance (.ofLifecycle l) note)
  others : ∀ id, (∀ note ∈ notes, note.nodeId ≠ id) → look id = (look₀ id).map fun k =>
    if k.promptedBy notes = true ∧ k.satisfied look = true then k.opened else k

theorem Settles.nil (look₀ : Lookup) : Settles look₀ [] look₀ where
  told _ h := nomatch h
  others id _ := by simp [WorkflowNode.promptedBy]

namespace Settles

variable {look₀ look look' : Lookup} {notes notes' : List Notification}

/-- What is found of a node that took no notification. -/
theorem of_others (h : Settles look₀ notes look) {id : NodeId}
    (hid : ∀ note ∈ notes, note.nodeId ≠ id) {k : WorkflowNode} (hk : look₀ id = some k) :
    look id = some k ∨ look id = some k.opened ∧ k.state = .locked := by
  rw [h.others id hid, hk]
  dsimp only [Option.map_some]
  split
  · rename_i hp
    exact .inr ⟨rfl, (WorkflowNode.promptedBy_iff.mp hp.1).1⟩
  · exact .inl rfl

/-- The nodes are found again, and none that was not locked is. -/
theorem get? (h : Settles look₀ notes look) {id : NodeId} {n : WorkflowNode}
    (hn : look₀ id = some n) :
    ∃ n', look id = some n' ∧ n.Kin n' ∧ (n.state ≠ .locked → n'.state ≠ .locked) := by
  by_cases hid : ∀ note ∈ notes, note.nodeId ≠ id
  · rcases h.of_others hid hn with hn' | ⟨hn', -⟩
    · exact ⟨n, hn', .refl n, fun hs => hs⟩
    · exact ⟨n.opened, hn', n.kin_opened, fun _ => nofun⟩
  · push Not at hid
    obtain ⟨note, hmem, rfl⟩ := hid
    obtain ⟨k, l, hk, -, hn'⟩ := h.told note hmem
    obtain rfl := Option.some.inj (hn.symm.trans hk)
    exact ⟨_, hn', n.kin_advance _ note, fun _ => NodeState.ofLifecycle_ne_locked l⟩

/-- No other nodes are found. -/
theorem of_get? (h : Settles look₀ notes look) {id : NodeId} {n' : WorkflowNode}
    (hn' : look id = some n') : ∃ n, look₀ id = some n := by
  by_cases hid : ∀ note ∈ notes, note.nodeId ≠ id
  · rw [h.others id hid] at hn'
    obtain ⟨n, hn, -⟩ := Option.map_eq_some_iff.mp hn'
    exact ⟨n, hn⟩
  · push Not at hid
    obtain ⟨note, hmem, rfl⟩ := hid
    obtain ⟨n, -, hn, -⟩ := h.told note hmem
    exact ⟨n, hn⟩

/-- A dependency on a node that took no notification is met as it was. -/
theorem isMet_others (h : Settles look₀ notes look) {d : ResolvedDependency}
    (hd : ∀ note ∈ notes, note.nodeId ≠ d.nodeId) : d.isMet look = d.isMet look₀ := by
  refine Bool.eq_iff_iff.mpr ⟨d.isMet_mono fun m hm hc => ?_, d.isMet_mono fun m hm hc => ?_⟩
  · obtain ⟨k, hk⟩ := h.of_get? hm
    rcases h.of_others hd hk with hsame | ⟨hopen, -⟩
    · exact hk.trans (hsame.symm.trans hm)
    · obtain rfl := Option.some.inj (hopen.symm.trans hm)
      cases hc
  · rcases h.of_others hd hm with hsame | ⟨-, hl⟩
    · exact hsame
    · exact nomatch hc.symm.trans hl

/-- **Any order.** What is found in the end does not depend on the order of the notifications. -/
theorem unique (h : Settles look₀ notes look) (h' : Settles look₀ notes' look')
    (hp : notes.Perm notes') (id : NodeId) : look id = look' id := by
  have htold : ∀ note ∈ notes, look note.nodeId = look' note.nodeId := by
    intro note hmem
    obtain ⟨n, l, hn, hl, hlook⟩ := h.told note hmem
    obtain ⟨n', l', hn', hl', hlook'⟩ := h'.told note (hp.mem_iff.mp hmem)
    obtain rfl := Option.some.inj (hn.symm.trans hn')
    obtain rfl := Lifecycle.text_injective (Option.some.inj (hl.1.symm.trans hl'.1))
    rw [hlook, hlook']
  -- a dependency is met in both or in neither, so the same nodes are satisfied
  have hmet : ∀ d : ResolvedDependency, d.isMet look = d.isMet look' := by
    intro d
    by_cases hd : ∀ note ∈ notes, note.nodeId ≠ d.nodeId
    · rw [h.isMet_others hd, h'.isMet_others fun note hmem => hd note (hp.mem_iff.mpr hmem)]
    · push Not at hd
      obtain ⟨note, hmem, hid⟩ := hd
      rw [ResolvedDependency.isMet, ResolvedDependency.isMet, ← hid, htold note hmem]
  by_cases hid : ∀ note ∈ notes, note.nodeId ≠ id
  · rw [h.others id hid, h'.others id fun note hmem => hid note (hp.mem_iff.mpr hmem)]
    refine congrArg (fun f => (look₀ id).map f) (funext fun k => ?_)
    rw [WorkflowNode.promptedBy_perm hp, WorkflowNode.satisfied_congr fun d _ => hmet d]
  · push Not at hid
    obtain ⟨note, hmem, rfl⟩ := hid
    exact htold note hmem

/-- One more notification opens the nodes that it prompted, or earlier ones did, and that are
satisfied now. -/
theorem opened_snoc {n m : WorkflowNode} {note : Notification} {l : Lifecycle}
    (hn : look m.id = some n) (hc : n.state ≠ .completed) (hl : note.Tells l)
    (hm : m.state = .ofLifecycle l) (hid : note.nodeId = m.id) (k : WorkflowNode) :
    (if m.state = .completed ∧ (if k.promptedBy notes = true ∧ k.satisfied look = true
          then k.opened else k).opensOn (look.put m) m.id = true
      then (if k.promptedBy notes = true ∧ k.satisfied look = true then k.opened else k).opened
      else if k.promptedBy notes = true ∧ k.satisfied look = true then k.opened else k) =
    if k.promptedBy (notes ++ [note]) = true ∧ k.satisfied (look.put m) = true
      then k.opened else k := by
  have hmono : k.satisfied look = true → k.satisfied (look.put m) = true :=
    WorkflowNode.satisfied_mono fun d _ => isMet_put hn hc
  simp only [WorkflowNode.promptedBy_snoc (k := k) hl hm hid]
  by_cases hopen : k.promptedBy notes = true ∧ k.satisfied look = true
  · -- it was open before, and a node that is open does not open again
    have hclosed : ¬ (m.state = .completed ∧ k.opened.opensOn (look.put m) m.id = true) :=
      fun ho => nomatch (WorkflowNode.opensOn_iff.mp ho.2).1
    rw [if_pos hopen, if_neg hclosed, if_pos ⟨.inl hopen.1, hmono hopen.2⟩]
  rw [if_neg hopen]
  refine if_congr ⟨fun ho => ?_, fun ho => ?_⟩ rfl rfl
  · obtain ⟨hs, hdep, hsat⟩ := WorkflowNode.opensOn_iff.mp ho.2
    exact ⟨.inr ⟨hs, ho.1, hdep⟩, hsat⟩
  · obtain ⟨hp | ⟨hs, hcm, hdep⟩, hsat⟩ := ho
    · -- a node that was prompted and not satisfied became so by this notification
      have hs := (WorkflowNode.promptedBy_iff.mp hp).1
      have hunsat : k.satisfied look = false := by
        rw [← Bool.not_eq_true]
        exact fun hsat' => hopen ⟨hp, hsat'⟩
      by_contra hclosed
      have hstays := satisfied_put_of_closed hn hc hs hunsat fun hcm => by
        rw [← Bool.not_eq_true]
        exact fun ho => hclosed ⟨hcm, ho⟩
      cases hstays.symm.trans hsat
    · exact ⟨hcm, WorkflowNode.opensOn_iff.mpr ⟨hs, hdep, hsat⟩⟩

/-- One more node takes a notification. -/
theorem advance (h : Settles look₀ notes look) {n m : WorkflowNode} {note : Notification}
    {l : Lifecycle} (hn : look m.id = some n) (ht : n.take? note = some m)
    (hl : note.Tells l) (hid : note.nodeId = m.id) (hnew : ∀ k ∈ notes, k.nodeId ≠ note.nodeId) :
    Settles look₀ (notes ++ [note]) (look.advance m) := by
  obtain ⟨hm, -, hc⟩ := WorkflowNode.take?_told ht hl
  have hstate : m.state = .ofLifecycle l := by rw [hm]; rfl
  constructor
  · intro k hk
    rcases List.mem_append.mp hk with hk | hk
    · -- a node that took its notification is not locked any more
      obtain ⟨n', l', hn', hl', hlook⟩ := h.told k hk
      refine ⟨n', l', hn', hl', advance_of_ne_locked hlook (hid ▸ hnew k hk) ?_⟩
      exact NodeState.ofLifecycle_ne_locked l'
    · obtain rfl := List.mem_singleton.mp hk
      obtain ⟨n₀, hn₀⟩ := h.of_get? hn
      rw [hid] at hnew ⊢
      refine ⟨n₀, l, hn₀, hl, ?_⟩
      rw [advance_self, hm]
      -- whether it was opened before does not show, since its state is another now
      rcases h.of_others hnew hn₀ with hsame | ⟨hopen, -⟩
      · rw [Option.some.inj (hn.symm.trans hsame)]
      · rw [Option.some.inj (hn.symm.trans hopen)]
        rfl
  · intro id hno
    obtain ⟨hold, hlast⟩ := List.forall_mem_append.mp hno
    have hne : id ≠ m.id := fun he => hlast note (List.mem_singleton_self _) (hid.trans he.symm)
    rw [advance_ne hne, h.others id hold, Option.map_map]
    refine congrArg (fun f => (look₀ id).map f) (funext fun k => ?_)
    simp only [Function.comp_apply, satisfied_advance]
    exact opened_snoc hn hc hl hstate hid k

end Settles

end Lookup

/-! ### What a store has become -/

namespace WorkflowStore

variable {s s' : WorkflowStore} {notes notes' : List Notification} {ids ids' : List NodeId}
  {n m : WorkflowNode} {x : WorkflowInstance} {note : Notification} {l : Lifecycle}

/-- The node was locked, and it is not any more. -/
def Unlocks (s s' : WorkflowStore) (id : NodeId) : Prop :=
  ∃ n n', s.nodes.get? id = some n ∧ s'.nodes.get? id = some n' ∧
    n.state = .locked ∧ n'.state ≠ .locked

/-- The notifications whose node is of the instance. -/
def addressed (s : WorkflowStore) (i : InstanceId) (notes : List Notification) :
    List Notification :=
  notes.filter fun note => (s.nodes.get? note.nodeId).map (·.owner.instanceId) = some i

/-- The notifications write their updates one after the other. -/
def written (c : Context) (notes : List Notification) : Context :=
  notes.foldl (fun c note => c.merge note.contextUpdates) c

/-- What the store has become by notifications that came one after the other, and the nodes that
they unlocked. -/
structure Tally (s : WorkflowStore) (notes : List Notification) (ids : List NodeId)
    (s' : WorkflowStore) : Prop where
  sound : s'.Sound
  settles : Lookup.Settles s.nodes.get? notes s'.nodes.get?
  distinct : ids.Nodup
  unlocked : ∀ id, id ∈ ids ↔ s.Unlocks s' id
  contexts : ∀ i, (s'.instances.get? i).map (·.globalContext) =
    (s.instances.get? i).map fun x => written x.globalContext (s.addressed i notes)

theorem Tally.nil (h : s.Sound) : s.Tally [] [] s where
  sound := h
  settles := .nil _
  distinct := .nil
  unlocked id := by
    refine ⟨nofun, ?_⟩
    rintro ⟨n, n', hn, hn', hl, hopen⟩
    obtain rfl := Option.some.inj (hn.symm.trans hn')
    exact absurd hl hopen
  contexts _ := rfl

/-- What a node unlocks is what is unlocked when it takes its place. -/
theorem Sound.mem_ids_unlockedBy_iff (h : s.Sound) (hn : s.nodes.get? m.id = some n)
    (ht : n.take? note = some m) (hl : note.Tells l) {id : NodeId} {t : WorkflowStore}
    (hnodes : ∀ id, t.nodes.get? id = Lookup.advance s.nodes.get? m id) :
    id ∈ (s.unlockedBy m).map (·.id) ↔ s.Unlocks t id := by
  have ho := WorkflowNode.onward_of_take? ht
  have hfit := WorkflowNode.fit_of_take? (h.fit _ n hn) ht
  have hopen := (WorkflowNode.take?_told ht hl).2.1
  constructor
  · intro hid
    obtain ⟨k, hk, rfl⟩ := List.mem_map.mp hid
    obtain ⟨-, hget, hlocked⟩ := h.of_mem_unlockedBy hn ho hfit hk
    have hget' := h.advance_of_mem_unlockedBy hn ho hfit hk
    exact ⟨k, k.opened, hget, (hnodes _).trans hget', hlocked, nofun⟩
  · rintro ⟨k, k', hk, hk', hlocked, hunlocked⟩
    rw [hnodes] at hk'
    refine (h.mem_ids_unlockedBy hn ho hfit hopen hk').mpr ⟨hunlocked, fun j hj => ?_⟩
    obtain rfl := Option.some.inj (hk.symm.trans hj)
    exact hlocked

/-- A node is unlocked at once, or first by some notifications and then by others. -/
theorem unlocks_trans {t : WorkflowStore} (h : Lookup.Settles s.nodes.get? notes s'.nodes.get?)
    (ho : ∀ id k, s'.nodes.get? id = some k → ∃ k', t.nodes.get? id = some k' ∧ k.Onward k')
    {id : NodeId} : s.Unlocks t id ↔ s.Unlocks s' id ∨ s'.Unlocks t id := by
  constructor
  · rintro ⟨k, k'', hk, hk'', hlocked, hopen⟩
    obtain ⟨k', hk', -⟩ := h.get? hk
    by_cases hl' : k'.state = .locked
    · exact .inr ⟨k', k'', hk', hk'', hl', hopen⟩
    · exact .inl ⟨k, k', hk, hk', hlocked, hl'⟩
  · rintro (⟨k, k', hk, hk', hlocked, hopen⟩ | ⟨k', k'', hk', hk'', hlocked, hopen⟩)
    · obtain ⟨k'', hk'', honward⟩ := ho id k' hk'
      exact ⟨k, k'', hk, hk'', hlocked, honward.not_locked hopen⟩
    · obtain ⟨k, hk⟩ := h.of_get? hk'
      obtain ⟨j, hj, -, hstays⟩ := h.get? hk
      obtain rfl := Option.some.inj (hk'.symm.trans hj)
      exact ⟨k, k'', hk, hk'', Decidable.not_not.mp fun hne => hstays hne hlocked, hopen⟩

/-- The instance of the node that takes a notification writes the updates, and no other one does. -/
theorem contexts_settle {n₀ : WorkflowNode}
    (h : ∀ i, (s'.instances.get? i).map (·.globalContext) =
      (s.instances.get? i).map fun x => written x.globalContext (s.addressed i notes))
    (hx : s'.instances.get? x.id = some x) (hn₀ : s.nodes.get? note.nodeId = some n₀)
    (howner : n₀.owner.instanceId = x.id) (m : WorkflowNode) (i : InstanceId) :
    ((s'.settle note m x).instances.get? i).map (·.globalContext) =
      (s.instances.get? i).map fun x =>
        written x.globalContext (s.addressed i (notes ++ [note])) := by
  have hlast : s.addressed i [note] = if i = x.id then [note] else [] := by
    rw [addressed, List.filter_singleton, hn₀]
    by_cases hi : i = x.id
    · simp [howner, hi]
    · simp [howner, Ne.symm hi, hi]
  have hi := h i
  rw [addressed, List.filter_append, ← addressed, ← addressed, hlast, settle, Table.get?_insert]
  split
  · rename_i he
    rw [he, hx] at hi
    rw [he]
    cases hy : s.instances.get? x.id with
    | none => simp [hy] at hi
    | some y =>
        simp only [hy, Option.map_some, Option.some.injEq] at hi
        simp [written, WorkflowInstance.take, hi]
  · rw [hi, List.append_nil]

/-- One more notification. -/
theorem Tally.settle (h : s.Tally notes ids s') (hn : s'.nodes.get? m.id = some n)
    (ht : n.take? note = some m) (hl : note.Tells l) (hid : note.nodeId = m.id)
    (hnew : ∀ k ∈ notes, k.nodeId ≠ note.nodeId) (hx : s'.instances.get? x.id = some x)
    (hxid : x.id = m.owner.instanceId) (calls : Nat) :
    s.Tally (notes ++ [note]) (ids ++ (s'.unlockedBy m).map (·.id))
      { s'.settle note m x with calls := calls } := by
  have ho := WorkflowNode.onward_of_take? ht
  have hfit := WorkflowNode.fit_of_take? (h.sound.fit _ n hn) ht
  have hb := h.sound.becomes_settle hn ho hfit hx note
  have hset := h.sound.advance hn ho hfit hb
  have hmem : ∀ id, id ∈ (s'.unlockedBy m).map (·.id) ↔
      s'.Unlocks { s'.settle note m x with calls := calls } id := fun id =>
    h.sound.mem_ids_unlockedBy_iff hn ht hl hb.nodes
  have hadvance := h.settles.advance hn ht hl hid hnew
  refine ⟨?_, ?_, ?_, fun id => ?_, fun i => ?_⟩
  · exact ⟨hset.keyed, hset.owned, hset.listed, hset.distinct, hset.stored, hset.peopled,
      hset.inside, hset.fit⟩
  · exact (funext hb.nodes : _ = Lookup.advance s'.nodes.get? m) ▸ hadvance
  · -- what was unlocked before is not locked, so it is not unlocked again
    refine List.nodup_append.mpr ⟨h.distinct, h.sound.nodup_unlockedBy hn ho hfit, ?_⟩
    rintro a ha b hb rfl
    obtain ⟨-, k, -, hk, -, hopen⟩ := (h.unlocked a).mp ha
    obtain ⟨k', -, hk', -, hlocked, -⟩ := (hmem a).mp hb
    obtain rfl := Option.some.inj (hk.symm.trans hk')
    exact hopen hlocked
  · rw [List.mem_append, h.unlocked, hmem]
    refine (unlocks_trans h.settles fun id k hk => ?_).symm
    obtain ⟨k', hk', honward⟩ := Lookup.onward_advance hn ho hk
    exact ⟨k', (hb.nodes id).trans hk', honward⟩
  · obtain ⟨n₀, hn₀⟩ := h.settles.of_get? hn
    obtain ⟨k, hk, hkin, -⟩ := h.settles.get? hn₀
    obtain rfl := Option.some.inj (hn.symm.trans hk)
    refine contexts_settle h.contexts hx (hid ▸ hn₀) ?_ m i
    rw [hxid, ho.kin.owner_eq, hkin.owner_eq]

/-- **Any order.** Two orders of the same notifications leave the same nodes, unlock the same ones
and, if no two of them write the same key, leave the same contexts. -/
theorem Tally.perm {t : WorkflowStore} (h : s.Tally notes ids s') (h' : s.Tally notes' ids' t)
    (hp : notes.Perm notes') :
    (∀ id, s'.nodes.get? id = t.nodes.get? id) ∧ (∀ id, id ∈ ids ↔ id ∈ ids') ∧
      (notes.Pairwise Notification.Apart → ∀ i,
        (s'.instances.get? i).map (·.globalContext) =
          (t.instances.get? i).map (·.globalContext)) := by
  have hsame := h.settles.unique h'.settles hp
  refine ⟨hsame, fun id => ?_, fun hapart i => ?_⟩
  · rw [h.unlocked, h'.unlocked]
    simp only [Unlocks, hsame]
  · rw [h.contexts, h'.contexts]
    refine congrArg (fun f => (s.instances.get? i).map f) (funext fun x => ?_)
    refine (hp.filter _).foldl_eq' (fun a ha b hb c => ?_) _
    by_cases hab : a = b
    · rw [hab]
    · have hsymm : Std.Symm Notification.Apart := ⟨fun _ _ h key => (h key).symm⟩
      exact c.merge_right_comm
        (hapart.forall (List.mem_of_mem_filter ha) (List.mem_of_mem_filter hb) hab)

end WorkflowStore

end Clearance
