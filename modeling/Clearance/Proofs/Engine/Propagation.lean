import Clearance.Proofs.Engine.Overlay
import Clearance.Proofs.Task.Activated

/-!
# Clearance — Proofs — Engine — Contexts reach the tasks

* `Engine.Known`: the nodes and the tasks there are belong to instances that were made.
* `Engine.Course.begins`: unless a task is activated from outside, an operation begins the tasks that
  the workflow layer activates in it, and changes the context of no other.
* `Engine.Course.requested`: what the workflow layer activates is a node that just came to be or was
  just unlocked, with the context that its instance has then.
* `Engine.context_propagates`: over a whole run.
-/

namespace Clearance

namespace Engine

open WorkflowStore Workshop

/-- Anything but an activation from outside the workflow layer. -/
def Op.ByLayers : Op → Prop
  | .init _ _ => False
  | _ => True

/-- The operation accepts a notification that unlocks the node. -/
def Op.Unlocks (e : Engine) (op : Op) (id : NodeId) : Prop :=
  ∃ note p, op.accepted e = some (note, p) ∧ id ∈ p.unlocked

/-- The nodes and the tasks there are belong to instances that were made. -/
structure Known (e : Engine) : Prop where
  steady : e.Steady
  nodes : ∀ id n, e.workflows.nodes.get? id = some n → id.Among e.instancesMade
  tasks : ∀ id g, e.workshop.contextOf id = some g → id.Among e.instancesMade

theorem known_ofCapacity (containers notifications : Nat) :
    (ofCapacity containers notifications).Known where
  steady := steady_ofCapacity containers notifications
  nodes _ _ h := nomatch h
  tasks _ _ h := nomatch h

section Step

variable {e e' : Engine} {op : Op} {as : List Activation}

/-! ### One operation -/

/-- What is done around the tasks, and by clients with tasks that there are, begins none. -/
theorem inherits_of_outside (he : e.Steady) (hop : op.Outside) (hlayers : op.ByLayers) :
    Inherits e.workshop (op.perform e).2.workshop := by
  cases op with
  | create => exact hop.elim
  | deliver => exact hop.elim
  | notify => exact hop.elim
  | init => exact hlayers.elim
  | execute ctx id q => exact execute_inherits he.coherent ctx id q
  | render ctx id => exact render_inherits he.coherent ctx id
  | snapshot id => exact snapshot_inherits he.coherent id
  | outage => exact fun _ => rfl
  | agencies => exact fun _ => rfl
  | close => exact fun _ => rfl
  | discard => exact fun _ => rfl

theorem Course.begins (hc : Course e op as (op.perform e).2) (he : e.Steady)
    (hlayers : op.ByLayers) : Begins as e.workshop (op.perform e).2.workshop := by
  by_cases hop : op.Outside
  · exact fun id => .inl (inherits_of_outside he hop hlayers id)
  · obtain ⟨w, hw, hrecords, -, hinits⟩ := hc.inits he hop
    intro id
    have hsame : w.contextOf id = e.workshop.contextOf id := TaskStore.contextOf_congr hrecords id
    rw [← hsame]
    exact hinits.begins hw id

/-- The workflow layer activates the nodes without dependencies of a new instance, and the nodes that
a notification unlocks, with the context that their instance has then. -/
theorem Course.requested (hc : Course e op as e') (h : e.Known) {a : Activation} (ha : a ∈ as)
    {n' : WorkflowNode} (hn' : e'.workflows.nodes.get? a.nodeId = some n') :
    (∃ x', e'.workflows.instances.get? n'.owner.instanceId = some x' ∧
      x'.globalContext = a.globalContext) ∧
    (n'.dependencies = [] → e.workflows.instances.get? n'.owner.instanceId = none) ∧
    (n'.dependencies ≠ [] → op.Unlocks e a.nodeId) := by
  cases hc with
  | invalid _ => cases ha
  | conflicting _ _ => cases ha
  | @aborted kind d globalContext c _ _ _ _ hd _ =>
      obtain rfl := hd
      have hfresh := fresh_of_mem_starts ((e.workshop.attempted_initial _).subset ha)
      exact absurd (h.nodes _ n' hn') hfresh.2
  | @founded kind d globalContext c _ _ hv hd hconflict _ =>
      have hw : c.Well := hd ▸ e.well_drafted kind globalContext hv
      have hfresh := fresh_of_mem_starts (hd ▸ ha)
      obtain ⟨k, hk, rfl, hready⟩ := Created.of_mem_starts ha
      rcases (get?_commit_eq_some (s := e.workflows.called) hconflict hw.distinct).mp hn' with
        ⟨hmem, hid⟩ | hold
      · obtain rfl := List.inj_on_of_nodup_map hw.distinct hmem hk hid
        have hdeps := hw.dependencies_of_ready hk hready
        rw [hw.owner n' hk]
        refine ⟨⟨c.inst, Table.get?_insert_self _ _ _, rfl⟩, fun _ => ?_, fun hno => absurd hdeps hno⟩
        exact (new_of_conflict? hconflict).1
      · exact absurd (h.nodes _ n' hold) hfresh.2
  | idle _ => cases ha
  | refused _ _ _ => cases ha
  | @carried _ note n m x e₁ _ calls hop ht hx hid hw =>
      have hs := h.steady.sound
      have hfit := ht.fit hs
      obtain ⟨p, haccepted, hunlocked⟩ := hop.accepted_eq_some h.steady ht
      obtain ⟨k, hk, rfl⟩ := List.mem_map.mp ha
      have hstore : e'.workflows = { e.workflows.settle note m x with calls := calls } := by
        rw [hw.workflows, settled, hop.rest.1]
      have hget := (ht.becomes hs hx hid).nodes k.id
      have hopened := hs.advance_of_mem_unlockedBy ht.found ht.onward hfit hk
      have hnode : n' = k.opened := by
        rw [hstore] at hn'
        exact Option.some.inj (hn'.symm.trans (hget.trans hopened))
      have howner := hs.owner_of_mem_unlockedBy ht.found ht.onward hfit hk
      subst hnode
      refine ⟨⟨x.take note m, ?_, rfl⟩, fun hno => ?_, fun _ => ⟨note, p, haccepted, ?_⟩⟩
      · rw [show k.opened.owner = k.owner from rfl, howner, hstore, ← hid]
        exact Table.get?_insert_self _ _ _
      · have hdepends := hs.dependencies_of_mem_unlockedBy ht.found ht.onward hfit hk
        exact absurd hno hdepends
      · rw [hunlocked]
        exact List.mem_map_of_mem hk
  | outside _ => cases ha

theorem Known.perform (h : e.Known) (hlayers : op.ByLayers) : (op.perform e).2.Known := by
  obtain ⟨as, hc⟩ := exists_course h.steady op
  have hr := hc.renumbered h.steady
  refine ⟨h.steady.effect (effect_perform h.steady op), fun id n' hn' => ?_, fun id g hg => ?_⟩
  · rcases hr.nodes id n' hn' with ⟨n, hn⟩ | ⟨hnew, -⟩
    · exact (h.nodes id n hn).mono hr.le
    · exact hnew
  · rcases hc.begins h.steady hlayers id with hsame | ⟨-, a, ha, rfl, -⟩
    · exact (h.tasks id g (hsame.symm.trans hg)).mono hr.le
    · rcases hr.activated a ha with ⟨n, hn⟩ | hnew
      · exact (h.nodes _ n hn).mono hr.le
      · exact hnew

end Step

theorem Known.after {e : Engine} (h : e.Known) {ops : List Op} (hops : ∀ op ∈ ops, op.ByLayers) :
    (after ops e).Known := by
  induction ops using List.reverseRecOn with
  | nil => exact h
  | append_singleton ops op ih =>
      obtain ⟨hbefore, hop⟩ := List.forall_mem_append.mp hops
      rw [after_append]
      exact (ih hbefore).perform (List.forall_mem_singleton.mp hop)

/-! ### A whole run -/

/-- The context that the task of a node is given in a run, if the node's instance was made with
`globalContext`. -/
inductive Given (e : Engine) (ops : List Op) (globalContext : Context) (n : WorkflowNode) :
    Context → Prop
  /-- A node without dependencies starts with the instance. -/
  | starting (h : n.dependencies = []) : Given e ops globalContext n globalContext
  /-- Any other node starts when it is unlocked, once the updates are merged that unlock it. -/
  | unlocked {before rest : List Op} {op : Op} (h : n.dependencies ≠ [])
      (hops : ops = before ++ op :: rest) (hu : op.Unlocks (after before e) n.id) :
      Given e ops globalContext n
        (globalContext.overlay (takenFor n.owner.instanceId e (before ++ [op])))

/-- What a node was given it was given also if the run goes on and the node moves. -/
theorem Given.snoc {e : Engine} {ops : List Op} {globalContext g : Context} {n n' : WorkflowNode}
    (h : Given e ops globalContext n g) (hk : n.Kin n') (op : Op) :
    Given e (ops ++ [op]) globalContext n' g := by
  obtain ⟨_, _, _, rfl⟩ := hk
  cases h with
  | starting h => exact .starting h
  | @unlocked before rest op' h hops hu =>
      have hlonger : ops ++ [op] = before ++ op' :: (rest ++ [op]) := by
        rw [hops, List.append_assoc, List.cons_append]
      exact .unlocked h hlonger hu

/-- What the last operation of a run activates is given the context its instance has then. -/
theorem Course.given {e : Engine} {ops : List Op} {op : Op} {as : List Activation}
    (hc : Course (after ops e) op as (op.perform (after ops e)).2) (he : e.Steady)
    (hknown : (after ops e).Known) {kind : InstanceKind} {d : WorkflowDefinition}
    {globalContext : Context} {c : Created} (h : Made e (ops ++ [op]) kind d globalContext c)
    {a : Activation} (ha : a ∈ as) {n' : WorkflowNode}
    (hn' : (op.perform (after ops e)).2.workflows.nodes.get? a.nodeId = some n')
    (ho : n'.owner.instanceId = c.inst.id) :
    Given e (ops ++ [op]) globalContext n' a.globalContext := by
  obtain ⟨x, hx, hcurrent⟩ := h.overlaid he
  rw [after_append] at hx
  obtain ⟨⟨x', hx', hcontext⟩, hstart, hunlock⟩ := hc.requested hknown ha hn'
  rw [ho] at hx' hstart
  obtain rfl := Option.some.inj (hx.symm.trans hx')
  rw [← hcontext, hcurrent]
  by_cases hdeps : n'.dependencies = []
  · -- nothing is accepted for an instance before it is there
    have habsent := hstart hdeps
    rw [takenFor_snoc, takenFor_eq_nil he habsent, takenFor_of_absent hknown.steady habsent]
    exact .starting hdeps
  · have hsound := (hknown.steady.effect (effect_perform hknown.steady op)).sound
    have hid := hsound.keyed _ n' hn'
    rw [← ho]
    exact .unlocked hdeps rfl (hid ▸ hunlock hdeps)

/-- In a run of the layers, the task of a node has the context that the node was given. -/
theorem given_of_contextOf {e : Engine} (he : e.Known) {ops : List Op}
    (hops : ∀ op ∈ ops, op.ByLayers) {kind : InstanceKind} {d : WorkflowDefinition}
    {globalContext : Context} {c : Created} (h : Made e ops kind d globalContext c)
    {id : NodeId} {n' : WorkflowNode} {g : Context}
    (hn' : (after ops e).workflows.nodes.get? id = some n') (ho : n'.owner.instanceId = c.inst.id)
    (hg : (after ops e).workshop.contextOf id = some g) : Given e ops globalContext n' g := by
  induction ops using List.reverseRecOn generalizing id n' g with
  | nil =>
      obtain ⟨_, _, _, hnil, -⟩ := h
      simp at hnil
  | append_singleton ops op ih =>
      obtain ⟨hbefore, hop⟩ := List.forall_mem_append.mp hops
      have hknown := he.after hbefore
      obtain ⟨as, hc⟩ := exists_course hknown.steady op
      rw [after_append] at hn' hg
      rcases hc.begins hknown.steady (List.forall_mem_singleton.mp hop) id with
        hsame | ⟨-, a, ha, rfl, hnew⟩
      · -- the task was there, so its node was, and so was the instance
        have hold := hsame.symm.trans hg
        obtain ⟨n, hn⟩ : ∃ n, (after ops e).workflows.nodes.get? id = some n := by
          rcases (hc.renumbered hknown.steady).nodes id n' hn' with hn | ⟨-, hfresh⟩
          · exact hn
          · exact absurd (hknown.tasks id g hold) hfresh
        obtain ⟨n'', hn'', honward⟩ := (effect_perform hknown.steady op).onward id n hn
        obtain rfl := Option.some.inj (hn''.symm.trans hn')
        have howner : n.owner.instanceId = c.inst.id := honward.kin.owner_eq ▸ ho
        obtain ⟨y, hy, -, -⟩ := owner?_eq_some (hknown.steady.sound.owned id n hn)
        rcases made_snoc.mp h with hmade | hmakes
        · exact (ih hbefore hmade hn howner hold).snoc honward.kin op
        · have habsent := (new_of_conflict? (hmakes.founded hknown.steady).1.conflict).1
          rw [howner, habsent] at hy
          cases hy
      · obtain rfl := Option.some.inj (hnew.symm.trans hg)
        exact hc.given he.steady hknown h ha hn' ho

/-- A task keeps its context, whatever is done. -/
theorem contextOf_after {e : Engine} (he : e.Steady) {id : NodeId} {g : Context}
    (hg : e.workshop.contextOf id = some g) (ops : List Op) :
    (after ops e).workshop.contextOf id = some g := by
  induction ops using List.reverseRecOn with
  | nil => exact hg
  | append_singleton ops op ih =>
      have h := he.after ops
      rw [after_append]
      by_cases hlayers : op.ByLayers
      · obtain ⟨as, hc⟩ := exists_course h op
        rcases hc.begins h hlayers id with hsame | ⟨hnone, -⟩
        · exact hsame.trans ih
        · exact nomatch hnone.symm.trans ih
      · cases op with
        | init ctx a =>
            rcases init_begins h.coherent ctx a id with hsame | ⟨hnone, -⟩
            · exact hsame.trans ih
            · exact nomatch hnone.symm.trans ih
        | _ => exact absurd trivial hlayers

/-- What a run makes of the context of an instance that was made with `globalContext`. -/
structure Propagates (e : Engine) (ops : List Op) (globalContext : Context) (c : Created) :
    Prop where
  /-- The instance has the context it was made with, overlaid by what was accepted for it. -/
  current : ∃ x, (after ops e).workflows.instances.get? c.inst.id = some x ∧
    x.globalContext = globalContext.overlay (takenFor c.inst.id e ops)
  /-- The task of a node of it has what the node was given. -/
  given : ∀ id n r, (after ops e).workflows.nodes.get? id = some n →
    n.owner.instanceId = c.inst.id → (after ops e).workshop.store.records.get? id = some r →
      Given e ops globalContext n r.globalContext
  /-- Whatever follows, the task has it still, and so has its container, kept or built again. -/
  lasting : ∀ id r, (after ops e).workshop.store.records.get? id = some r → ∀ more,
    (∃ r', (after more (after ops e)).workshop.store.records.get? id = some r' ∧
      r'.globalContext = r.globalContext) ∧
    ∀ handle, ((Workshop.snapshot id).go (after more (after ops e)).workshop).1 = .ok handle →
      handle.globalContext = r.globalContext

/-- **Contexts reach the tasks.** In a run in which only the workflow layer activates tasks, the
context of an instance is the one it was made with, overlaid by the updates of the notifications that
were accepted for its nodes, one after the other, so that a key has the value of the last that binds
it.  The record of a task holds what that was when the task was activated: for a node without
dependencies the context that the instance was made with, and for any other one the overlay up to the
notification that unlocked it, this one included.  It holds the same whatever is done afterwards. -/
theorem context_propagates (containers notifications : Nat) {ops : List Op}
    (hops : ∀ op ∈ ops, op.ByLayers) :
    (∀ i x, (after ops (ofCapacity containers notifications)).workflows.instances.get? i = some x →
      ∃ kind d globalContext c,
        Made (ofCapacity containers notifications) ops kind d globalContext c ∧ c.inst.id = i) ∧
    (∀ kind d globalContext c,
      Made (ofCapacity containers notifications) ops kind d globalContext c →
        Propagates (ofCapacity containers notifications) ops globalContext c) ∧
    ∀ (globalContext : Context) notes key, (globalContext.overlay notes).get? key =
      (notes.reverse.findSome? (·.contextUpdates.get? key)).or (globalContext.get? key) := by
  have hknown := known_ofCapacity containers notifications
  have hsteady := hknown.steady.after ops
  refine ⟨fun i x hx => exists_made hknown.steady (fun _ => rfl) hx,
    fun kind d globalContext c hmade => ⟨hmade.overlaid hknown.steady, fun id n r hn ho hr => ?_,
      fun id r hr more => ?_⟩, Context.get?_overlay⟩
  · exact given_of_contextOf hknown hops hmade hn ho (TaskStore.contextOf_of_get? hr)
  · have hkept := contextOf_after hsteady (TaskStore.contextOf_of_get? hr) more
    refine ⟨TaskStore.get?_of_contextOf hkept, fun handle hgo => ?_⟩
    have hseen := snapshot_globalContext (hsteady.after more).coherent hgo
    exact Option.some.inj (hseen.symm.trans hkept)

/-- A permit is applied for, and granted for a fee. -/
def charged : List Op :=
  [.create .consignment permit (Context.empty.insert "fee" (.int 0)),
    .notify ⟨⟨"$1-apply"⟩, some "COMPLETED", none, none, Context.empty.insert "fee" (.int 5)⟩]

/-- The wait for the payment of a permit knows the fee that it was granted for. -/
theorem context_propagates_charged :
    ∃ n r, (after charged (ofCapacity 1 1)).workflows.nodes.get? ⟨"$1-pay"⟩ = some n ∧
      (after charged (ofCapacity 1 1)).workshop.store.records.get? ⟨"$1-pay"⟩ = some r ∧
      n.dependencies ≠ [] ∧ r.globalContext.get? "fee" = some (.int 5) ∧
      Given (ofCapacity 1 1) charged (Context.empty.insert "fee" (.int 0)) n r.globalContext := by
  obtain ⟨c, e₁, hgo, hid⟩ := exists_permit (Context.empty.insert "fee" (.int 0))
  have hnode : ((after charged (ofCapacity 1 1)).workflows.nodes.get? ⟨"$1-pay"⟩).map
      (fun n => (n.owner.instanceId, n.dependencies.isEmpty)) = some (.nth 1, false) := by cbv
  have hrecord : ((after charged (ofCapacity 1 1)).workshop.store.records.get? ⟨"$1-pay"⟩).map
      (·.globalContext.get? "fee") = some (some (.int 5)) := by cbv
  obtain ⟨n, hn, hn'⟩ := Option.map_eq_some_iff.mp hnode
  obtain ⟨r, hr, hfee⟩ := Option.map_eq_some_iff.mp hrecord
  obtain ⟨howner, hdeps⟩ := Prod.mk.inj hn'
  have hlayers : ∀ op ∈ charged, op.ByLayers := by simp [charged, Op.ByLayers]
  have hgiven := ((context_propagates 1 1 hlayers).2.1 _ _ _ c
    ⟨[], _, _, rfl, rfl, by rw [after, List.foldl_nil, hgo]⟩).given _ n r hn
      (howner.trans hid.symm) hr
  exact ⟨n, r, hn, hr, fun hno => by simp [hno] at hdeps, hfee, hgiven⟩

end Engine

end Clearance
