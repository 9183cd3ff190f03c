import Clearance.Proofs.Task.Workshop

/-!
# Clearance — Proofs — Task — The context a task was activated with

The record of a task holds the context that the workflow had when the task was activated.

* `TaskStore.contextOf`: the context in the record of a node, if the node has one.
* `Workshop.init_begins`: an activation gives a context to a node without a record, and to no
  other.
* `Workshop.execute_inherits`, `Workshop.render_inherits`, `Workshop.snapshot_inherits`: nothing
  that is done with a task changes it.
* `Workshop.Inits.begins`: several activations, one after the other.
* `Workshop.snapshot_globalContext`: a plugin sees it as it is in the record, whether its container
  was kept or is built again.
-/

namespace Clearance

/-- The context that the task of a node was activated with. -/
def TaskStore.contextOf (s : TaskStore) (id : NodeId) : Option Context :=
  (s.records.get? id).map (·.globalContext)

theorem TaskStore.contextOf_of_get? {s : TaskStore} {id : NodeId} {r : TaskRecord}
    (h : s.records.get? id = some r) : s.contextOf id = some r.globalContext := by
  rw [contextOf, h]
  rfl

theorem TaskStore.contextOf_congr {s s' : TaskStore} (h : s'.records = s.records) (id : NodeId) :
    s'.contextOf id = s.contextOf id := by
  rw [contextOf, contextOf, h]

/-- A task that has a context has a record. -/
theorem TaskStore.get?_of_contextOf {s : TaskStore} {id : NodeId} {c : Context}
    (h : s.contextOf id = some c) : ∃ r, s.records.get? id = some r ∧ r.globalContext = c :=
  Option.map_eq_some_iff.mp h

/-! ### A plugin at work -/

/-- One record is replaced by one with the same context. -/
theorem TaskStore.contextOf_replaced {s s' : TaskStore} {r r' : TaskRecord}
    (h : s.records.get? r.id = some r) (h' : s'.records.get? r.id = some r')
    (hsame : r'.globalContext = r.globalContext)
    (he : ∀ id, id ≠ r.id → s'.records.get? id = s.records.get? id) (id : NodeId) :
    s'.contextOf id = s.contextOf id := by
  by_cases hid : id = r.id
  · subst hid
    rw [contextOf_of_get? h, contextOf_of_get? h', hsame]
  · rw [contextOf, contextOf, he id hid]

theorem Bench.Works.contextOf {b b' : Bench} (h : Works b b') (id : NodeId) :
    b'.store.contextOf id = b.store.contextOf id := by
  obtain ⟨r, r', hr, hr', hd, he⟩ := h
  have hst : b'.store.records.get? r.id = some r' := hd.id_eq ▸ hr'.stored
  refine TaskStore.contextOf_replaced hr.stored hst ?_ he id
  obtain ⟨_, _, rfl, -⟩ := hd
  rfl

theorem Bench.Settled.contextOf {x : Response} {b b' : Bench} (h : Settled x b b') (id : NodeId) :
    b'.store.contextOf id = b.store.contextOf id := by
  rcases h with ⟨-, hw⟩ | ⟨_, _, -, -, r, _, hr, hr', -, he⟩
  · exact hw.contextOf id
  · exact TaskStore.contextOf_replaced hr.stored hr'.stored rfl he id

namespace Workshop

variable {w w₁ w' : Workshop} {id : NodeId}

/-- The context that the task of a node was activated with. -/
def contextOf (w : Workshop) (id : NodeId) : Option Context := w.store.contextOf id

/-- No task is begun, and every one keeps its context. -/
def Inherits (w w' : Workshop) : Prop := ∀ id, w'.contextOf id = w.contextOf id

/-- Of the tasks only those are begun that these activations ask for, each with the context that is
asked for, and every other one keeps its context. -/
def Begins (as : List Activation) (w w' : Workshop) : Prop :=
  ∀ id, w'.contextOf id = w.contextOf id ∨
    w.contextOf id = none ∧ ∃ a ∈ as, a.nodeId = id ∧ w'.contextOf id = some a.globalContext

theorem Kept.inherits (h : Kept w w') : Inherits w w' :=
  TaskStore.contextOf_congr h.records

theorem Inherits.trans {w₂ : Workshop} (h : Inherits w w₁) (k : Inherits w₁ w₂) : Inherits w w₂ :=
  fun id => (k id).trans (h id)

/-- A job of the plugin, and the announcement of its response. -/
theorem settle_inherits {c : Container} {job : Act Bench Response}
    (hj : job.Ends (c.bench w.store w.agency)
      (fun x b => Bench.Settled x (c.bench w.store w.agency) b)
      fun _ b => Bench.Works (c.bench w.store w.agency) b) (k : NodeId) :
    (work c job >>= announce k).Ends w (fun _ w' => Inherits w w') fun _ w' => Inherits w w' := by
  rw [Act.ends_bind, ends_work]
  refine hj.mono (fun x b h => ?_) fun _ b h => h.contextOf
  simp only [announce]
  cases x.notification? k with
  | none => exact h.contextOf
  | some n => exact h.contextOf

/-! ### The operations -/

theorem begins_begun {a : Activation} (h : w₁.store.records = (w.begun a).2) : Begins [a] w w₁ := by
  intro id
  cases hr : w.store.records.get? a.nodeId with
  | some r =>
      rw [begun_of_get? hr] at h
      exact .inl (TaskStore.contextOf_congr h id)
  | none =>
      rw [begun_of_none hr] at h
      by_cases hid : id = a.nodeId
      · subst hid
        refine .inr ⟨by rw [contextOf, TaskStore.contextOf, hr]; rfl, a, List.mem_cons_self, rfl, ?_⟩
        refine TaskStore.contextOf_of_get? (r := a.record) ?_
        rw [h, Table.get?_insert_self]
      · left
        rw [contextOf, contextOf, TaskStore.contextOf, TaskStore.contextOf, h,
          Table.get?_insert_ne _ _ hid]

theorem Begins.inherits {as : List Activation} (h : Begins as w w₁) (k : Inherits w₁ w') :
    Begins as w w' := by
  intro id
  rw [k id]
  exact h id

/-- An activation gives its context to a node without a record. -/
theorem init_begins (hw : w.Coherent) (ctx : CallContext) (a : Activation) :
    Begins [a] w ((init ctx a).go w).2 := by
  refine (Act.ends_state (P := Begins [a] w)).mp ?_
  simp only [init]
  split
  · exact fun _ => .inl rfl
  rw [Act.ends_bind]
  refine (activate_ends hw a).mono (fun c w₁ h => ?_) fun _ w₁ h id => .inl (h.1.inherits id)
  obtain ⟨-, -, hc, hr⟩ := h
  have hbegun := begins_begun hr
  have hjob := Bench.startBy_ends hc.bench_at (Plugin.start_works hc.bench_at c.plugin ctx)
  exact (settle_inherits hjob _).mono (fun _ _ k => hbegun.inherits k)
    fun _ _ k => hbegun.inherits k

/-- What follows the container of a node that was activated before. -/
theorem resolve_inherits (hw : w.Coherent) {α : Type} {next : Container → Act Workshop α}
    (hn : ∀ c r w₁, w₁.Has c r →
      (next c).Ends w₁ (fun _ w₂ => Inherits w₁ w₂) fun _ w₂ => Inherits w₁ w₂) :
    Inherits w ((resolve id >>= next).go w).2 := by
  refine (Act.ends_state (P := Inherits w)).mp ?_
  rw [Act.ends_bind]
  refine (resolve_ends hw id).mono (fun c w₁ h => ?_) fun _ w₁ h => h.1.inherits
  obtain ⟨hkept, r, -, hc⟩ := h
  exact (hn c r w₁ hc).mono (fun _ _ k => hkept.inherits.trans k)
    fun _ _ k => hkept.inherits.trans k

theorem execute_inherits (hw : w.Coherent) (ctx : CallContext) (id : NodeId) (q : ActionRequest) :
    Inherits w ((execute ctx id q).go w).2 := by
  unfold execute
  by_cases hq : Text.isBlankText q.action = true
  · rw [if_pos hq]
    exact fun _ => rfl
  · rw [if_neg hq]
    refine resolve_inherits hw fun c r w₁ hc => settle_inherits ?_ _
    exact Bench.executeBy_ends hc.bench_at (Plugin.execute_works hc.bench_at c.plugin ctx q)

theorem render_inherits (hw : w.Coherent) (ctx : CallContext) (id : NodeId) :
    Inherits w ((render ctx id).go w).2 := by
  refine resolve_inherits hw fun c r w₁ hc => ?_
  rw [ends_work]
  exact Act.Ends.mono (Plugin.render_works hc.bench_at c.plugin ctx) (fun _ _ h => h.1.contextOf)
    fun _ _ h => h.contextOf

theorem snapshot_inherits (hw : w.Coherent) (id : NodeId) :
    Inherits w ((snapshot id).go w).2 :=
  resolve_inherits hw fun _ _ _ _ _ => rfl

/-- The live task of a node has the context of its record, cached or built again. -/
theorem snapshot_globalContext (hw : w.Coherent) {h : Handle}
    (hgo : ((snapshot id).go w).1 = .ok h) : w.contextOf id = some h.globalContext := by
  have hends : (snapshot id).Ends w (fun h _ => w.contextOf id = some h.globalContext)
      fun _ _ => True := by
    rw [snapshot, Act.ends_bind]
    refine (resolve_ends hw id).mono (fun c w₁ k => ?_) fun _ _ _ => trivial
    obtain ⟨-, r, hr, hc⟩ := k
    have hcopy : c.handle.globalContext = r.globalContext := congrArg Handle.globalContext hc.copied
    refine (TaskStore.contextOf_of_get? hr).trans ?_
    rw [hcopy]
  exact (Act.ends_iff.mp hends).1 h _ (Prod.ext hgo rfl)

/-- Activations give their contexts to nodes without records. -/
theorem Inits.begins {as : List Activation} (h : Inits w as w') (hw : w.Coherent) :
    Begins as w w' := by
  induction h with
  | nil => exact fun _ => .inl rfl
  | count _ _ ih => exact ih
  | @init as w₁ h a ih =>
      intro id
      have hw₁ := (h.served (P := fun _ => True) hw fun _ _ => trivial).coherent hw
      rcases init_begins hw₁ {} a id with hsame | ⟨hnone, b, hb, hid, hnew⟩
      · rw [hsame]
        refine (ih id).imp_right fun ⟨hnone, b, hb, hid, hnew⟩ => ?_
        exact ⟨hnone, b, List.mem_append_left _ hb, hid, hnew⟩
      · refine .inr ⟨?_, b, List.mem_append_right _ hb, hid, hnew⟩
        rcases ih id with hbefore | ⟨hbefore, -⟩
        · exact hbefore.symm.trans hnone
        · exact hbefore

end Workshop

end Clearance
