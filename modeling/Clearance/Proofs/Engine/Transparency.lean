import Clearance.Proofs.Engine.Effect
import Clearance.Proofs.Engine.Layered
import Clearance.Proofs.Task.Transparency

/-!
# Clearance — Proofs — Engine — The capacity of the cache does not show

Two engines whose caches hold different numbers of containers, and that do the same, stay alike but
for what they have cached (`Engine.Pair`).

* `Engine.layered_respects`: the workflow layer sees the tasks only through operations that do not
  tell the two apart.
* `Engine.Twins.perform`: one operation.
* `Engine.capacity_does_not_show`: any number of them.
-/

namespace Clearance

open Act

namespace Engine

/-- Two engines that are alike but for what they have cached, whose journals were `j` and `j'`. -/
structure Pair (j j' : List AgencyCall) (e f : Engine) : Prop where
  workflows : f.workflows = e.workflows
  made : f.instancesMade = e.instancesMade
  workshop : e.workshop.Pair j j' f.workshop

section Respects

variable {j j' : List AgencyCall}

/-! ### The parts of an engine -/

theorem onWorkflows_respects {α : Type} (a : Act WorkflowStore α) :
    Respects (Pair j j') (onWorkflows a) := by
  refine .of_go fun e f h => ?_
  simp only [onWorkflows, Act.on, go_of]
  rw [h.workflows]
  exact ⟨rfl, rfl, h.made, h.workshop⟩

theorem onWorkshop_respects {α : Type} {a : Act Workshop α}
    (ha : Respects (Workshop.Pair j j') a) : Respects (Pair j j') (onWorkshop a) :=
  ha.on (fun _ _ h => h.workshop) fun _ _ _ _ h k => ⟨h.workflows, h.made, k⟩

theorem init_respects (ctx : CallContext) (a : Activation) :
    Respects (Pair j j') (onWorkshop (Workshop.init ctx a)) :=
  onWorkshop_respects (Workshop.init_respects ctx a)

theorem count_respects (k : MetricKind) : Respects (Pair j j') (onWorkshop (Workshop.count k)) := by
  refine onWorkshop_respects (Workshop.Respects.of_alike (fun w v h => ?_) fun w hw => ?_)
  · exact Workshop.count_respects k w v h.toTwin
  · exact hw.of_eq rfl rfl (fun _ _ h => h) fun _ h => h

theorem freshInstanceId_respects : Respects (Pair j j') freshInstanceId := by
  refine .of_go fun e f h => ?_
  simp only [freshInstanceId, go_of]
  rw [h.made]
  exact ⟨rfl, h.workflows, rfl, h.workshop⟩

/-! ### The workflow layer -/

theorem layered_respects : Layered (Respects (Pair j j')) where
  toClosed := Respects.closed _
  workflows := onWorkflows_respects
  fresh := freshInstanceId_respects
  init := init_respects {}
  unlocked := count_respects _
  unregistered := count_respects _

theorem createInstance_respects (kind : InstanceKind) (d : WorkflowDefinition)
    (globalContext : Context) : Respects (Pair j j') (createInstance kind d globalContext) :=
  layered_respects.createInstance kind d globalContext

theorem handle_respects (note : Notification) : Respects (Pair j j') (handle note) :=
  layered_respects.handle note

theorem process_respects (note : Notification) : Respects (Pair j j') (process note) := by
  refine (handle_respects note).attempt.bind fun r => ?_
  cases r with
  | ok _ => exact count_respects _
  | error _ => exact count_respects _

end Respects

/-! ### Operations -/

/-- An operation that leaves the task store answering. -/
def Op.LeavesStore : Op → Prop
  | .outage _ _ => False
  | _ => True

/-- An operation that shows a form that has to be fetched for that. -/
def Op.Fetches (e : Engine) : Op → Prop
  | .render _ id => e.workshop.Fetches id
  | _ => False

/-- Two engines that are alike but for what they have cached. -/
def Twins (e f : Engine) : Prop := Pair e.workshop.agency.journal f.workshop.agency.journal e f

theorem Pair.twins {j j' : List AgencyCall} {e f : Engine} (h : Pair j j' e f) : Twins e f :=
  ⟨h.workflows, h.made,
    ⟨⟨h.workshop.store, h.workshop.mailbox, h.workshop.agency.like.twin, h.workshop.build,
      h.workshop.metrics⟩, h.workshop.left, h.workshop.right⟩⟩

/-- The same notification is taken out of both mailboxes. -/
theorem Pair.receive {j j' : List AgencyCall} {e f : Engine} (h : Pair j j' e f) :
    e.receive.1 = f.receive.1 ∧ Pair j j' e.receive.2 f.receive.2 := by
  have hw := h.workshop
  unfold Engine.receive Mailbox.take?
  rw [hw.mailbox]
  cases hq : e.workshop.mailbox.queue with
  | nil =>
      refine ⟨rfl, h.workflows, h.made,
        ⟨⟨hw.store, rfl, hw.agency, hw.build, hw.metrics⟩, hw.left, ?_⟩⟩
      refine hw.right.of_eq rfl rfl (fun _ _ h => h) fun n hn => ?_
      rw [hw.mailbox]
      exact hn
  | cons note rest =>
      refine ⟨rfl, h.workflows, h.made, ⟨⟨hw.store, rfl, hw.agency, hw.build, hw.metrics⟩, ?_, ?_⟩⟩
      · refine hw.left.of_eq rfl rfl (fun _ _ h => h) fun n hn => ?_
        rw [hq]
        exact List.mem_cons_of_mem _ hn
      · refine hw.right.of_eq rfl rfl (fun _ _ h => h) fun n hn => ?_
        rw [hw.mailbox, hq]
        exact List.mem_cons_of_mem _ hn

theorem Pair.deliver {j j' : List AgencyCall} {e f : Engine} (h : Pair j j' e f) :
    (Op.deliver.perform e).1 = (Op.deliver.perform f).1 ∧
      Pair j j' (Op.deliver.perform e).2 (Op.deliver.perform f).2 := by
  have k := h.receive
  unfold Op.perform
  revert k
  rcases e.receive with ⟨note?, e₁⟩
  rcases f.receive with ⟨note?', f₁⟩
  rintro ⟨rfl, k⟩
  cases note? with
  | none => exact ⟨rfl, k⟩
  | some note => exact ⟨rfl, ((process_respects note).go_eq k).2⟩

/-- Changes around the engines are the same for both. -/
theorem Pair.around {j j' : List AgencyCall} {e f : Engine} (h : Pair j j' e f) {w v : Workshop}
    (hw : Around e.workshop w) (hv : Around f.workshop v) (ht : w.Twin j j' v)
    (hqw : ∀ n ∈ w.mailbox.queue, n ∈ e.workshop.mailbox.queue)
    (hqv : ∀ n ∈ v.mailbox.queue, n ∈ f.workshop.mailbox.queue) :
    Pair j j' { e with workshop := w } { f with workshop := v } :=
  ⟨h.workflows, h.made, ⟨ht, hw.coherent h.workshop.left hqw, hv.coherent h.workshop.right hqv⟩⟩

/-- The operation gives the same answer at both engines, and makes the same calls. -/
def Op.Same (op : Op) (e f : Engine) : Prop :=
  (op.perform e).1 = (op.perform f).1 ∧
    Pair e.workshop.agency.journal f.workshop.agency.journal (op.perform e).2 (op.perform f).2

/-- **One operation.** It leaves the engines alike.  Unless it shows a form that has to be fetched,
they give the same answer, and make the same calls. -/
theorem Twins.perform {e f : Engine} (h : Twins e f) {op : Op} (hop : op.LeavesStore) :
    Twins (op.perform e).2 (op.perform f).2 ∧ (¬ op.Fetches e → op.Same e f) := by
  have hw := h.workshop
  -- all but the operation that may fetch do the same whatever is cached
  have hsame : ∀ {P : Prop}, op.Same e f →
      Twins (op.perform e).2 (op.perform f).2 ∧ (P → op.Same e f) :=
    fun k => ⟨k.2.twins, fun _ => k⟩
  cases op with
  | create kind d globalContext =>
      have k := (createInstance_respects kind d globalContext).go_eq h
      exact hsame ⟨congrArg Answer.created k.1, k.2⟩
  | init ctx a =>
      have k := (init_respects ctx a).go_eq h
      exact hsame ⟨congrArg Answer.response k.1, k.2⟩
  | execute ctx id q =>
      have k := (onWorkshop_respects (Workshop.execute_respects ctx id q)).go_eq h
      exact hsame ⟨congrArg Answer.response k.1, k.2⟩
  | render ctx id =>
      -- fetched or not, a form leaves its traces only in the journal and in the container
      have hp : Pair _ _ ((Op.render ctx id).perform e).2 ((Op.render ctx id).perform f).2 :=
        ⟨h.workflows, h.made, hw.render ctx id⟩
      refine ⟨hp.twins, fun hid => ?_⟩
      have k := (Workshop.render_alike hw hid ctx).go_eq
      have hleft := (Workshop.render_serves hw.left ctx id).coherent
      have hright := (Workshop.render_serves hw.right ctx id).coherent
      exact ⟨congrArg Answer.reply k.1, h.workflows, h.made, k.2, hleft, hright⟩
  | snapshot id =>
      have k := (onWorkshop_respects (Workshop.snapshot_respects id)).go_eq h
      exact hsame ⟨congrArg Answer.copy k.1, k.2⟩
  | deliver => exact hsame (Pair.deliver h)
  | notify note =>
      have k := (handle_respects note).go_eq h
      exact hsame ⟨congrArg Answer.progress k.1, k.2⟩
  | outage => exact hop.elim
  | agencies reachable replies =>
      refine hsame ⟨rfl, Pair.around h ⟨rfl, rfl, rfl, rfl⟩ ⟨rfl, rfl, rfl, rfl⟩ ?_ (fun _ h => h)
        fun _ h => h⟩
      exact ⟨hw.store, hw.mailbox, ⟨⟨rfl, fun _ => rfl⟩, hw.agency.journal⟩, hw.build, hw.metrics⟩
  | close =>
      refine hsame ⟨rfl, Pair.around h ⟨rfl, rfl, rfl, rfl⟩ ⟨rfl, rfl, rfl, rfl⟩ ?_ (fun _ h => h)
        fun _ h => h⟩
      exact ⟨hw.store, congrArg Mailbox.close hw.mailbox, hw.agency, hw.build, hw.metrics⟩
  | discard =>
      refine hsame ⟨rfl, Pair.around h ⟨rfl, rfl, rfl, rfl⟩ ⟨rfl, rfl, rfl, rfl⟩ ?_ nofun nofun⟩
      exact ⟨hw.store, congrArg Mailbox.abandon hw.mailbox, hw.agency, hw.build, hw.metrics⟩

/-! ### Runs -/

theorem twins_ofCapacity (c c' notifications : Nat) :
    Twins (ofCapacity c notifications) (ofCapacity c' notifications) :=
  ⟨rfl, rfl, ⟨⟨rfl, ⟨rfl, rfl⟩, rfl, rfl⟩, rfl, (Agency.Like.refl _).twin, rfl, fun _ _ => rfl⟩,
    Workshop.coherent_ofCapacity _ _, Workshop.coherent_ofCapacity _ _⟩

theorem Twins.after {ops : List Op} (hops : ∀ op ∈ ops, op.LeavesStore) {e f : Engine}
    (h : Twins e f) : Twins (after ops e) (after ops f) := by
  induction ops generalizing e f with
  | nil => exact h
  | cons op rest ih =>
      obtain ⟨hop, hrest⟩ := List.forall_mem_cons.mp hops
      exact ih hrest (h.perform hop).1

/-- An operation that does not tell `e` from `f`: it leaves the same tasks, workflows and
notifications and, except for those of the cache, counters, and lets each container be built again.
It gives the same answer and makes the same calls, unless it shows a form that has to be fetched for
that. -/
structure Op.Indistinct (op : Op) (e f : Engine) : Prop where
  records : (op.perform f).2.workshop.store.records = (op.perform e).2.workshop.store.records
  workflows : (op.perform f).2.workflows = (op.perform e).2.workflows
  mailbox : (op.perform f).2.workshop.mailbox = (op.perform e).2.workshop.mailbox
  counters : ∀ k, k.ofCache = false →
    (op.perform f).2.workshop.metrics.count k = (op.perform e).2.workshop.metrics.count k
  rebuilt : ∀ id r, (op.perform e).2.workshop.store.records.get? id = some r →
    ∃ p, ((Workshop.rebuild r).go (op.perform e).2.workshop).1 = .ok (.ofRecord r p) ∧
      ((Workshop.rebuild r).go (op.perform f).2.workshop).1 = .ok (.ofRecord r p)
  answer : ¬ op.Fetches e → (op.perform f).1 = (op.perform e).1
  calls : ¬ op.Fetches e →
    ∃ made, (op.perform e).2.workshop.agency.journal = e.workshop.agency.journal ++ made ∧
      (op.perform f).2.workshop.agency.journal = f.workshop.agency.journal ++ made

/-- **The capacity of the cache does not show.** Engines that cache different numbers of containers
and whose stores answer all the time do the same at each step, whatever was done before. -/
theorem capacity_does_not_show (c c' notifications : Nat) {ops : List Op} {op : Op}
    (hops : ∀ o ∈ ops, o.LeavesStore) (hop : op.LeavesStore) :
    op.Indistinct (after ops (ofCapacity c notifications))
      (after ops (ofCapacity c' notifications)) := by
  have hrun := (twins_ofCapacity c c' notifications).after hops
  obtain ⟨hw, hsame⟩ := hrun.perform hop
  refine ⟨hw.workshop.store.records, hw.workflows, hw.workshop.mailbox, hw.workshop.metrics,
    fun id r hr => ?_, fun hf => (hsame hf).1.symm, fun hf => (hsame hf).2.workshop.agency.journal⟩
  obtain ⟨p, hp⟩ := hw.workshop.left.buildable id r hr
  have hp' := hp
  rw [← hw.workshop.build] at hp'
  exact ⟨p, Workshop.go_rebuild hp, Workshop.go_rebuild hp'⟩

/-- Two permits are applied for. -/
def twoPermits : List Op :=
  [.create .consignment permit {}, .create .consignment permit {}]

/-- The form of the first permit shows the same whether its container was kept or, as the cache
holds but one, is built again. -/
theorem capacity_does_not_show_evicted :
    ((Op.render {} ⟨"$1-apply"⟩).perform (after twoPermits (ofCapacity 2 1))).1 =
      ((Op.render {} ⟨"$1-apply"⟩).perform (after twoPermits (ofCapacity 0 1))).1 := by
  have hstored : ((after twoPermits (ofCapacity 0 1)).workshop.store.records.get? ⟨"$1-apply"⟩).map
      (fun r => (r.kind, r.config)) = some (.simpleForm, .obj [("formId", .str "F")]) := by
    cbv
  have hbuild : (after twoPermits (ofCapacity 0 1)).workshop.build .simpleForm
      (.obj [("formId", .str "F")]) = .ok (.form ⟨"F", none, none, none, none, false, none⟩) := by
    cbv
  have hops : ∀ o ∈ twoPermits, o.LeavesStore :=
    List.forall_mem_cons.mpr ⟨trivial, List.forall_mem_singleton.mpr trivial⟩
  have hop : (Op.render {} ⟨"$1-apply"⟩).LeavesStore := trivial
  refine (capacity_does_not_show 0 2 1 hops hop).answer ?_
  rintro ⟨r, p, hr, hp, hfetches⟩
  rw [hr] at hstored
  obtain ⟨hkind, hconfig⟩ := Prod.mk.inj (Option.some.inj hstored)
  rw [hkind, hconfig, hbuild] at hp
  obtain rfl := Except.ok.inj hp
  exact hfetches.2 rfl

end Engine

end Clearance
