import Clearance.Proofs.Task.Workshop

/-!
# Clearance — Proofs — Task — What an operation announces

An operation on a node ends with a response, or with something that moves nothing.  What it sends
and where it leaves the task both follow from that alone.

* `Workshop.Sends`: the mailbox and all counters but those of the cache are as sending one
  notification leaves them, or as they were.
* `Lifecycle.GoesOn`: how a lifecycle goes on by a response, legally.
* `Workshop.Reports`: what is sent of a node and how its task goes on.
* `Workshop.init_reports`, `Workshop.execute_reports`, `Workshop.render_reports`,
  `Workshop.snapshot_reports`: a response with a new state is announced once, after the task has
  moved, and everything else is announced by nothing.
-/

namespace Clearance

/-- How a lifecycle goes on: it stays, or it makes a legal move. -/
inductive Lifecycle.GoesOn (l : Lifecycle) : Option Lifecycle → Lifecycle → Prop
  | stays : GoesOn l none l
  | moves {m : Lifecycle} (h : l.canMoveTo m = true) : GoesOn l (some m) m

/-- The move that an answer asks for. -/
def Response.moveOf : Except Failure Response → Option Lifecycle
  | .ok x => x.newState
  | .error _ => none

/-- The notification that an answer gives rise to. -/
def Response.noteOf (id : NodeId) : Except Failure Response → Option Notification
  | .ok x => x.notification? id
  | .error _ => none

theorem Response.notification?_of_some {x : Response} {s : Lifecycle} (h : x.newState = some s)
    (id : NodeId) :
    x.notification? id =
      some ⟨id, some s.text, x.extendedState, x.outcome, x.contextUpdates⟩ := by
  rw [notification?, h]
  rfl

theorem Response.notification?_of_none {x : Response} (h : x.newState = none) (id : NodeId) :
    x.notification? id = none := by
  rw [notification?, h]
  rfl

namespace Workshop

/-! ### Sending -/

/-- The workshop once a notification is sent, if there is one to send. -/
def sending (w : Workshop) : Option Notification → Workshop
  | none => w
  | some n => ((send n).go w).2

/-- Between two workshops this notification was sent, or none was. -/
structure Sends (note? : Option Notification) (w w' : Workshop) : Prop where
  mailbox : w'.mailbox = (w.sending note?).mailbox
  metrics : ∀ k, k.ofCache = false → w'.metrics.count k = (w.sending note?).metrics.count k

/-- The lifecycle of the task of a node; a node without a record has not started one. -/
def lifecycle (w : Workshop) (id : NodeId) : Lifecycle :=
  ((w.store.records.get? id).map (·.state)).getD .initialized

/-- What is sent of a node, and how its task goes on. -/
structure Reports (id : NodeId) (note? : Option Notification) (move : Option Lifecycle)
    (w w' : Workshop) : Prop where
  sends : Sends note? w w'
  course : (w.lifecycle id).GoesOn move (w'.lifecycle id)

variable {w w₁ w' : Workshop} {id : NodeId} {note? : Option Notification}
  {move : Option Lifecycle}

theorem lifecycle_of_get? {r : TaskRecord} (h : w.store.records.get? id = some r) :
    w.lifecycle id = r.state := by
  rw [lifecycle, h]
  rfl

theorem lifecycle_of_none (h : w.store.records.get? id = none) :
    w.lifecycle id = .initialized := by
  rw [lifecycle, h]
  rfl

theorem lifecycle_congr (h : w'.store.records.get? id = w.store.records.get? id) :
    w'.lifecycle id = w.lifecycle id := by
  rw [lifecycle, lifecycle, h]

/-- A task that has left the start has a record. -/
theorem get?_of_lifecycle {l : Lifecycle} (h : w.lifecycle id = l) (hl : l ≠ .initialized) :
    ∃ r, w.store.records.get? id = some r ∧ r.state = l := by
  cases hr : w.store.records.get? id with
  | none => exact absurd (h.symm.trans (lifecycle_of_none hr)) hl
  | some r => exact ⟨r, rfl, (lifecycle_of_get? hr).symm.trans h⟩

/-- What is sent depends on the mailbox alone, and so do the counts that it adds. -/
theorem Sends.of_calm (h : Calm w w₁) (k : Sends note? w₁ w') : Sends note? w w' := by
  cases note? with
  | none => exact ⟨k.mailbox.trans h.mailbox, fun i hi => (k.metrics i hi).trans (h.metrics i hi)⟩
  | some n =>
      refine ⟨?_, fun i hi => ?_⟩
      · rw [k.mailbox]
        simp only [sending, send, Act.go_of, h.mailbox]
      · rw [k.metrics i hi]
        simp only [sending, send, Act.go_of, h.mailbox, Metrics.count_record, h.metrics i hi]

theorem Reports.of_calm (h : Calm w w₁) (hl : w₁.lifecycle id = w.lifecycle id)
    (k : Reports id note? move w₁ w') : Reports id note? move w w' :=
  ⟨k.sends.of_calm h, hl ▸ k.course⟩

theorem Reports.quiet (hm : w'.mailbox = w.mailbox)
    (hk : ∀ k, k.ofCache = false → w'.metrics.count k = w.metrics.count k)
    (hl : w'.lifecycle id = w.lifecycle id) : Reports id none none w w' :=
  ⟨⟨hm, hk⟩, hl ▸ .stays⟩

theorem Kept.reports (h : Kept w w') : Reports id none none w w' :=
  .quiet h.mailbox h.metrics (lifecycle_congr (by rw [h.records]))

/-! ### A plugin at work -/

section Works

variable {c : Container} {r : TaskRecord} {b : Bench}

theorem reports_of_works (hc : w.Has c r) (hb : Bench.Works (c.bench w.store w.agency) b) :
    Reports r.id none none w (w.keeping c b) := by
  obtain ⟨r₀, r₁, h₀, h₁, hd, -⟩ := hb
  obtain rfl := hc.bench_at.unique h₀
  have hst : b.store.records.get? r.id = some r₁ := hd.id_eq ▸ h₁.stored
  refine .quiet rfl (fun _ _ => rfl) ?_
  rw [lifecycle_of_get? (w := w.keeping c b) hst, lifecycle_of_get? hc.stored, hd.state_eq]

/-- The response of a plugin is announced once it has moved the task. -/
theorem announce_reports (hc : w.Has c r) {x : Response}
    (hb : Bench.Settled x (c.bench w.store w.agency) b) :
    (announce r.id x).Ends (w.keeping c b)
      (fun y w' => y = x ∧ Reports r.id (x.notification? r.id) x.newState w w')
      fun _ _ => False := by
  simp only [announce]
  rcases hb with ⟨hx, hb⟩ | ⟨next, s, hx, -, r₀, l, h₀, h₁, hmove, -⟩
  · rw [x.notification?_of_none hx, hx]
    exact ⟨rfl, reports_of_works hc hb⟩
  · obtain rfl := hc.bench_at.unique h₀
    have hst : b.store.records.get? r.id = some
        { r with state := next, pluginState := some s, localState := l } := h₁.stored
    rw [x.notification?_of_some hx, hx]
    dsimp only
    rw [Act.ends_bind, send, Act.ends_of]
    refine ⟨rfl, ⟨rfl, fun _ _ => rfl⟩, ?_⟩
    rw [lifecycle_of_get? hc.stored, lifecycle_of_get? (w := { w.keeping c b with
      mailbox := _, metrics := _ }) hst]
    exact .moves hmove

/-- A job of the plugin, and the announcement of its response. -/
theorem settle_reports (hc : w.Has c r) {job : Act Bench Response}
    (hj : job.Ends (c.bench w.store w.agency)
      (fun x b => Bench.Settled x (c.bench w.store w.agency) b)
      fun _ b => Bench.Works (c.bench w.store w.agency) b) :
    (work c job >>= announce r.id).Ends w
      (fun x w' => Reports r.id (x.notification? r.id) x.newState w w')
      fun _ w' => Reports r.id none none w w' := by
  rw [Act.ends_bind, ends_work]
  refine hj.mono (fun x b h => ?_) fun _ b h => reports_of_works hc h
  refine (announce_reports hc h).mono (fun y w' k => ?_) fun _ _ k => k.elim
  obtain ⟨rfl, hr⟩ := k
  exact hr

end Works

/-! ### The operations -/

/-- A new record stands where its node stood without one. -/
theorem lifecycle_begun {a : Activation} (hr : w₁.store.records = (w.begun a).2) :
    w₁.lifecycle a.nodeId = w.lifecycle a.nodeId := by
  cases hno : w.store.records.get? a.nodeId with
  | some r =>
      rw [begun_of_get? hno] at hr
      exact lifecycle_congr (by rw [hr])
  | none =>
      rw [begun_of_none hno] at hr
      rw [lifecycle_of_none hno]
      refine lifecycle_of_get? (r := a.record) ?_
      rw [hr]
      exact Table.get?_insert_self _ _ _

/-- What an activation sends, and how it lets the task go on, is told by its answer. -/
theorem init_reports (hw : w.Coherent) (ctx : CallContext) (a : Activation) :
    Reports a.nodeId (Response.noteOf a.nodeId ((init ctx a).go w).1)
      (Response.moveOf ((init ctx a).go w).1) w ((init ctx a).go w).2 := by
  refine Act.ends_answer (P := fun answer =>
    Reports a.nodeId (Response.noteOf a.nodeId answer) (Response.moveOf answer) w) |>.mp ?_
  simp only [init, Act.ends_bind, Act.ends_ite, Act.ends_throw]
  split
  · exact (Kept.refl hw).reports
  · refine (activate_ends hw a).mono (fun c w₁ h => ?_) fun _ w₁ h => h.1.reports
    obtain ⟨hcalm, -, hc, hr⟩ := h
    have hnode : c.handle.nodeId = (w.begun a).1.id := congrArg Handle.nodeId hc.copied
    have hs := settle_reports hc
      (Bench.startBy_ends hc.bench_at (Plugin.start_works hc.bench_at c.plugin ctx))
    rw [hnode, ← Act.ends_bind]
    rw [id_begun hw] at hs ⊢
    exact hs.mono (fun _ _ k => k.of_calm hcalm (lifecycle_begun hr))
      fun _ _ k => k.of_calm hcalm (lifecycle_begun hr)

/-- What follows the container of a node that was activated before. -/
theorem resolve_reports {α : Type} {next : Container → Act Workshop α}
    (noteOf : Except Failure α → Option Notification)
    (moveOf : Except Failure α → Option Lifecycle) (hw : w.Coherent)
    (hfail : ∀ e, noteOf (.error e) = none ∧ moveOf (.error e) = none)
    (hn : ∀ c r w₁, r.id = id → w₁.Has c r →
      (next c).Ends w₁ (fun x w₂ => Reports id (noteOf (.ok x)) (moveOf (.ok x)) w₁ w₂)
        fun _ w₂ => Reports id none none w₁ w₂) :
    Reports id (noteOf ((resolve id >>= next).go w).1) (moveOf ((resolve id >>= next).go w).1) w
      ((resolve id >>= next).go w).2 := by
  refine Act.ends_answer (P := fun answer => Reports id (noteOf answer) (moveOf answer) w) |>.mp ?_
  rw [Act.ends_bind]
  refine (resolve_ends hw id).mono (fun c w₁ h => ?_) fun e w₁ h => ?_
  · obtain ⟨hkept, r, hr, hc⟩ := h
    have hl : w₁.lifecycle id = w.lifecycle id := lifecycle_congr (by rw [hkept.records])
    refine (hn c r w₁ (hw.keyed id r hr) hc).mono (fun _ _ k => k.of_calm hkept.toCalm hl)
      fun e _ k => ?_
    rw [(hfail e).1, (hfail e).2]
    exact k.of_calm hkept.toCalm hl
  · rw [(hfail e).1, (hfail e).2]
    exact h.1.reports

/-- What an action sends, and how it lets the task go on, is told by its answer. -/
theorem execute_reports (hw : w.Coherent) (ctx : CallContext) (id : NodeId) (q : ActionRequest) :
    Reports id (Response.noteOf id ((execute ctx id q).go w).1)
      (Response.moveOf ((execute ctx id q).go w).1) w ((execute ctx id q).go w).2 := by
  simp only [execute]
  by_cases hq : Text.isBlankText q.action = true
  · rw [if_pos hq]
    exact (Kept.refl hw).reports
  · rw [if_neg hq]
    refine resolve_reports (Response.noteOf id) Response.moveOf hw (fun _ => ⟨rfl, rfl⟩)
      fun c r w₁ hid hc => ?_
    have hnode : c.handle.nodeId = r.id := congrArg Handle.nodeId hc.copied
    have hs := settle_reports hc
      (Bench.executeBy_ends hc.bench_at (Plugin.execute_works hc.bench_at c.plugin ctx q))
    rw [hid] at hs
    rw [hnode, hid]
    exact hs

theorem render_reports (hw : w.Coherent) (ctx : CallContext) (id : NodeId) :
    Reports id none none w ((render ctx id).go w).2 := by
  refine resolve_reports (fun _ => none) (fun _ => none) hw (fun _ => ⟨rfl, rfl⟩)
    fun c r w₁ hid hc => ?_
  rw [ends_work, ← hid]
  have hworks := Plugin.render_works hc.bench_at c.plugin ctx
  exact Act.Ends.mono hworks (fun _ _ h => reports_of_works hc h.1)
    fun _ _ h => reports_of_works hc h

theorem snapshot_reports (hw : w.Coherent) (id : NodeId) :
    Reports id none none w ((snapshot id).go w).2 := by
  refine resolve_reports (fun _ => none) (fun _ => none) hw (fun _ => ⟨rfl, rfl⟩)
    fun c r w₁ _ _ => ?_
  exact .quiet rfl (fun _ _ => rfl) rfl

end Workshop

end Clearance
