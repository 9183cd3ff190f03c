import Clearance.Proofs.Task.Stage
import Clearance.Proofs.Task.Workshop

/-!
# Clearance — Proofs — Task — The stages in a workshop

* `Workshop.Staged`: the record of a node is at the stage of the actions on the node.
* `Workshop.init_staged`, `Workshop.execute_staged` and their companions: the operations on a node
  keep it there, and an execution moves it by the action that it commits.
* `Workshop.Inits.staged`: so do any number of activations.
-/

namespace Clearance

namespace Workshop

/-- The record of the node is at the stage of these actions.  Without a record there were none. -/
def Staged (w : Workshop) (id : NodeId) (done : List ActionRequest) : Prop :=
  match w.store.records.get? id with
  | none => done = []
  | some r => ∃ p, w.build r.kind r.config = .ok p ∧ p.Stage r done

variable {w w' : Workshop} {id : NodeId} {done : List ActionRequest} {r : TaskRecord}

theorem Staged.of_eq (h : w.Staged id done)
    (hr : w'.store.records.get? id = w.store.records.get? id) (hb : w'.build = w.build) :
    w'.Staged id done := by
  rw [Staged, hr, hb]
  exact h

theorem staged_of_none (h : w.store.records.get? id = none) (hd : done = []) :
    w.Staged id done := by
  rw [Staged, h]
  exact hd

theorem staged_of_get? (h : w.store.records.get? id = some r) {p : Plugin}
    (hp : w.build r.kind r.config = .ok p) (hS : p.Stage r done) : w.Staged id done := by
  rw [Staged, h]
  exact ⟨p, hp, hS⟩

theorem Staged.of_none (h : w.Staged id done) (hno : w.store.records.get? id = none) :
    done = [] := by
  rw [Staged, hno] at h
  exact h

theorem Staged.stage (h : w.Staged id done) (hr : w.store.records.get? id = some r) {p : Plugin}
    (hp : w.build r.kind r.config = .ok p) : p.Stage r done := by
  rw [Staged, hr] at h
  obtain ⟨_, hp', hS⟩ := h
  obtain rfl := Except.ok.inj (hp'.symm.trans hp)
  exact hS

theorem Staged.kept (h : w.Staged id done) (k : Kept w w') : w'.Staged id done :=
  h.of_eq (by rw [k.records]) k.build

section Works

variable {c : Container}

/-- What the plugin left at its bench is the record of its node. -/
theorem staged_keeping (hc : w.Has c r) {b : Bench} {r' : TaskRecord} (hb : b.At r')
    (hsame : r.Same r') (hS : c.plugin.Stage r' done) : (w.keeping c b).Staged r.id done := by
  refine staged_of_get? (p := c.plugin) (hsame.id ▸ hb.stored) ?_ hS
  rw [hsame.kind, hsame.config]
  exact hc.built

theorem announce_still (w : Workshop) (k : NodeId) (x : Response) :
    (announce k x).Ends w (fun y w' => y = x ∧ w'.store = w.store ∧ w'.build = w.build)
      fun _ _ => False := by
  simp only [announce]
  cases x.notification? k with
  | none => exact ⟨rfl, rfl, rfl⟩
  | some _ => exact ⟨rfl, rfl, rfl⟩

/-- A job of the plugin, and the announcement of its response. -/
theorem work_staged (hc : w.Has c r) {job : Act Bench Response}
    {done' : Response → List ActionRequest}
    (hj : job.Ends (c.bench w.store w.agency)
      (fun x b => Bench.Settled x (c.bench w.store w.agency) b)
      fun _ b => Bench.Works (c.bench w.store w.agency) b)
    (hs : job.Ends (c.bench w.store w.agency) (fun x => Bench.Shows (c.plugin.Stage · (done' x)))
      fun _ => Bench.Shows (c.plugin.Stage · done)) (k : NodeId) :
    (work c job >>= announce k).Ends w (fun x w' => w'.Staged r.id (done' x))
      fun _ w' => w'.Staged r.id done := by
  rw [Act.ends_bind, ends_work]
  refine (hj.and hs).mono (fun x b h => ?_) fun _ b h => ?_
  · obtain ⟨hset, r', hb, hS⟩ := h
    have hst := staged_keeping hc hb (hset.same hc.bench_at hb) hS
    refine (announce_still _ k x).mono (fun y w' h => ?_) fun _ _ h => h.elim
    obtain ⟨rfl, hstore, hbuild⟩ := h
    exact hst.of_eq (by rw [hstore]) hbuild
  · obtain ⟨hworks, r', hb, hS⟩ := h
    exact staged_keeping hc hb (hworks.same hc.bench_at hb) hS

end Works

/-! ### The operations keep the stages -/

/-- A node is activated at the stage it is at, and a new one at the first. -/
theorem Staged.begun {a : Activation} (h : w.Staged a.nodeId done) {p : Plugin}
    (hp : w.build (w.begun a).1.kind (w.begun a).1.config = .ok p) :
    p.Stage (w.begun a).1 done := by
  cases hno : w.store.records.get? a.nodeId with
  | some r =>
      rw [begun_of_get? hno] at hp ⊢
      exact h.stage hno hp
  | none =>
      rw [begun_of_none hno]
      obtain rfl := h.of_none hno
      cases p with
      | form _ => exact .fresh rfl rfl
      | event _ => exact .fresh rfl rfl

/-- An activation leaves its node at a stage of the same actions. -/
theorem init_staged (hw : w.Coherent) (ctx : CallContext) {a : Activation}
    (h : w.Staged a.nodeId done) : ((init ctx a).go w).2.Staged a.nodeId done := by
  refine (Act.ends_state (P := (Staged · a.nodeId done))).mp ?_
  simp only [init, Act.ends_bind, Act.ends_ite, Act.ends_throw]
  split
  · exact h
  · refine (activate_ends hw a).mono (fun c w₁ k => ?_) fun _ w₁ k => h.kept k.1
    obtain ⟨hcalm, -, hc, -⟩ := k
    have hS := h.begun (hcalm.build ▸ hc.built)
    have hs := work_staged hc
      (Bench.startBy_ends hc.bench_at (Plugin.start_works hc.bench_at c.plugin ctx))
      (Plugin.start_shows hc.bench_at hS ctx) c.handle.nodeId
    rw [id_begun hw] at hs
    rw [← Act.ends_bind]
    exact hs

/-- What follows the container of a node that was activated before. -/
theorem resolve_staged {α : Type} {next : Container → Act Workshop α}
    {done' : α → List ActionRequest} (hw : w.Coherent) (h : w.Staged id done)
    (hn : ∀ c r w₁, w₁.Has c r → c.plugin.Stage r done →
      (next c).Ends w₁ (fun x w₂ => w₂.Staged r.id (done' x)) fun _ w₂ => w₂.Staged r.id done) :
    (resolve id >>= next).Ends w (fun x w' => w'.Staged id (done' x))
      fun _ w' => w'.Staged id done := by
  rw [Act.ends_bind]
  refine (resolve_ends hw id).mono (fun c w₁ k => ?_) fun _ w₁ k => h.kept k.1
  obtain ⟨hkept, r, hr, hc⟩ := k
  have hid := hw.keyed id r hr
  rw [← hid]
  exact hn c r w₁ hc (h.stage hr (hkept.build ▸ hc.built))

/-- An action leaves its node at a stage of the same actions, or of these and itself if it is
committed. -/
theorem execute_staged (hw : w.Coherent) (h : w.Staged id done) (ctx : CallContext)
    (q : ActionRequest) :
    ((execute ctx id q).go w).2.Staged id
      (done ++ q.committedBy ((execute ctx id q).go w).1) := by
  have hends : (execute ctx id q).Ends w
      (fun x w' => w'.Staged id (done ++ q.committedBy (.ok x))) fun _ w' => w'.Staged id done := by
    unfold execute
    by_cases hq : Text.isBlankText q.action = true
    · rw [if_pos hq]
      exact h
    · rw [if_neg hq]
      refine resolve_staged hw h fun c r w₁ hc hS => ?_
      exact work_staged hc
        (Bench.executeBy_ends hc.bench_at (Plugin.execute_works hc.bench_at c.plugin ctx q))
        (Plugin.execute_shows hc.bench_at hS ctx q) c.handle.nodeId
  revert hends
  unfold Act.Ends
  rcases (execute ctx id q).go w with ⟨_ | _, _⟩
  · intro hs
    rw [ActionRequest.committedBy, List.append_nil]
    exact hs
  · exact fun hs => hs

theorem render_staged (hw : w.Coherent) (h : w.Staged id done) (ctx : CallContext) :
    ((render ctx id).go w).2.Staged id done := by
  refine (Act.ends_state (P := (Staged · id done))).mp
    (resolve_staged hw h fun c r w₁ hc hS => ?_)
  have hkeep : ∀ b, Bench.Still (c.bench w₁.store w₁.agency) b →
      (w₁.keeping c b).Staged r.id done :=
    fun b hb => staged_keeping hc (hc.bench_at.still hb) ⟨rfl, rfl, rfl⟩ hS
  rw [ends_work]
  exact (Plugin.render_still _ c.plugin ctx).mono (fun _ => hkeep) fun _ => hkeep

theorem snapshot_staged (hw : w.Coherent) (h : w.Staged id done) :
    ((snapshot id).go w).2.Staged id done :=
  (Act.ends_state (P := (Staged · id done))).mp <| resolve_staged hw h fun _ _ _ hc hS => by
    rw [Act.ends_pure]
    exact staged_of_get? hc.stored hc.built hS

/-! ### Any operation -/

/-- An operation that leaves its own node at a stage of the same actions leaves every node so. -/
theorem Serves.staged {k : NodeId} (hs : Serves k w w') (h : w.Staged id done)
    (hself : w.Staged k done → w'.Staged k done) : w'.Staged id done := by
  by_cases hid : id = k
  · subst hid
    exact hself h
  · exact h.of_eq (hs.elsewhere id hid) hs.build

/-- However many nodes are activated, each is left at a stage of the same actions. -/
theorem Inits.staged {as : List Activation} (hi : Inits w as w') (hw : w.Coherent)
    (h : w.Staged id done) : w'.Coherent ∧ w'.build = w.build ∧ w'.Staged id done := by
  induction hi with
  | nil => exact ⟨hw, rfl, h⟩
  | init _ a ih =>
      obtain ⟨hw₁, hb₁, h₁⟩ := ih
      have hs := init_serves hw₁ {} a
      exact ⟨hs.coherent, hs.build.trans hb₁, hs.staged h₁ (init_staged hw₁ {})⟩
  | count _ _ ih =>
      obtain ⟨hw₁, hb₁, h₁⟩ := ih
      exact ⟨hw₁.of_eq rfl rfl (fun _ _ hc => hc) fun _ hq => hq, hb₁, h₁⟩

end Workshop

end Clearance
