import Clearance.Proofs.Task.Twin
import Clearance.Proofs.Task.Workshop

/-!
# Clearance — Proofs — Task — What a caller does not see

Two workshops that differ in what they have cached, in the counters of that and in what was fetched
(`Workshop.Twin`) give the same answers: `Workshop.init_respects`, `Workshop.execute_respects`,
`Workshop.snapshot_respects` and, for a task that shows without fetching, `Workshop.render_alike`.
-/

namespace Clearance

open Act

namespace Workshop

/-- Two workshops with the same records, notifications and counters, but for those of the cache. -/
structure Twin (j j' : List AgencyCall) (w v : Workshop) : Prop where
  store : w.store.Twin v.store
  mailbox : v.mailbox = w.mailbox
  agency : w.agency.Twin j j' v.agency
  build : v.build = w.build
  metrics : ∀ k, k.ofCache = false → v.metrics.count k = w.metrics.count k

/-- …that are coherent, each by itself. -/
structure Pair (j j' : List AgencyCall) (w v : Workshop) : Prop extends Twin j j' w v where
  left : w.Coherent
  right : v.Coherent

section Alike

variable {j j' : List AgencyCall} {w v w' v' : Workshop} {c d : Container} {r : TaskRecord}

/-! ### Containers -/

theorem Twin.calm (h : Twin j j' w v) (hw : Calm w w') (hv : Calm v v')
    (hr : v'.store.records = w'.store.records) : Twin j j' w' v' where
  store := ⟨hr, hw.up h.store.left, hv.up h.store.right⟩
  mailbox := hv.mailbox.trans (h.mailbox.trans hw.mailbox.symm)
  agency := by
    rw [hw.agency, hv.agency]
    exact h.agency
  build := hv.build.trans (h.build.trans hw.build.symm)
  metrics k hk := (hv.metrics k hk).trans ((h.metrics k hk).trans (hw.metrics k hk).symm)

theorem Twin.kept (h : Twin j j' w v) (hw : Kept w w') (hv : Kept v v') : Twin j j' w' v' :=
  h.calm hw.toCalm hv.toCalm (hv.records.trans (h.store.records.trans hw.records.symm))

/-- Two containers of one record, each in its workshop. -/
structure Acquired (j j' : List AgencyCall) (c d : Container) (w v : Workshop) (r : TaskRecord) :
    Prop where
  twin : Twin j j' w v
  left : w.Has c r
  right : v.Has d r

theorem Acquired.handle (h : Acquired j j' c d w v r) : d.handle = c.handle :=
  h.right.copied.trans h.left.copied.symm

theorem Acquired.plugin (h : Acquired j j' c d w v r) : d.plugin = c.plugin := by
  have hd := h.right.built
  rw [h.twin.build, h.left.built] at hd
  exact (Except.ok.inj hd).symm

/-- Nodes are activated alike, from the cache, from their record or from nothing. -/
theorem activate_alike (h : Pair j j' w v) (a : Activation) :
    (acquire a.nodeId (create a)).Alike (acquire a.nodeId (create a)) w v
      (fun c d w' v' => ∃ r, Acquired j j' c d w' v' r) (Twin j j') := by
  have hbegun : v.begun a = w.begun a := by rw [begun, begun, h.store.records]
  -- where one workshop cannot build a new container, the other one cannot have built it
  have hnew : w.store.records.get? a.nodeId = none → (w.begun a).1 = a.record := fun hno => by
    rw [begun_of_none hno]
  refine .of_ends (activate_ends h.left a) (activate_ends h.right a) ?_ ?_ ?_ ?_
  · rintro c w' d v' ⟨hw, -, hc, hr⟩ ⟨hv, -, hd, hq⟩
    rw [hbegun] at hd hq
    exact ⟨_, h.calm hw hv (hq.trans hr.symm), hc, hd⟩
  · rintro e w' e' v' ⟨hw, he⟩ ⟨hv, he'⟩
    have hb := (he.resolve_left h.store.left.not_failedBy).2
    have hb' := (he'.resolve_left h.store.right.not_failedBy).2
    rw [h.build, hb] at hb'
    exact ⟨Except.error.inj hb', h.kept hw hv⟩
  · rintro c w' e v' ⟨hw, -, hc, -⟩ ⟨-, he⟩
    obtain ⟨hno, hb⟩ := he.resolve_left h.store.right.not_failedBy
    have hbuilt := hc.built
    rw [hnew (h.store.records ▸ hno), hw.build, ← h.build] at hbuilt
    have hclash := hb.symm.trans hbuilt
    cases hclash
  · rintro e w' d v' ⟨-, he⟩ ⟨hv, -, hd, -⟩
    obtain ⟨hno, hb⟩ := he.resolve_left h.store.left.not_failedBy
    have hbuilt := hd.built
    rw [hbegun, hnew hno, hv.build, h.build] at hbuilt
    have hclash := hb.symm.trans hbuilt
    cases hclash

/-- Containers of nodes with records are found alike, in the cache or not. -/
theorem resolve_alike (h : Pair j j' w v) (id : NodeId) :
    (resolve id).Alike (resolve id) w v
      (fun c d w' v' => ∃ r, Acquired j j' c d w' v' r ∧ w.store.records.get? id = some r ∧
        w.build r.kind r.config = .ok c.plugin)
      (Twin j j') := by
  have hrec := h.store.records
  refine .of_ends (resolve_ends h.left id) (resolve_ends h.right id) ?_ ?_ ?_ ?_
  · rintro c w' d v' ⟨hw, r, hr, hc⟩ ⟨hv, q, hq, hd⟩
    rw [hrec, hr] at hq
    obtain rfl := Option.some.inj hq
    exact ⟨r, ⟨h.kept hw hv, hc, hd⟩, hr, hw.build ▸ hc.built⟩
  · rintro e w' e' v' ⟨hw, he⟩ ⟨hv, he'⟩
    obtain ⟨-, rfl⟩ := he.resolve_left h.store.left.not_failedBy
    obtain ⟨-, rfl⟩ := he'.resolve_left h.store.right.not_failedBy
    exact ⟨rfl, h.kept hw hv⟩
  · rintro c w' e v' ⟨-, r, hr, -⟩ ⟨-, he⟩
    have hno := (he.resolve_left h.store.right.not_failedBy).1
    rw [hrec, hr] at hno
    cases hno
  · rintro e w' d v' ⟨-, he⟩ ⟨-, q, hq, -⟩
    have hno := (he.resolve_left h.store.left.not_failedBy).1
    rw [hrec, hno] at hq
    cases hq

/-! ### Work and announcements -/

theorem work_alike {α : Type} (h : Acquired j j' c d w v r) {job : Act Bench α}
    (hjob : Respects (Bench.Twin j j') job) :
    (work c job).Alike (work d job) w v (fun x y w' v' => x = y ∧ Twin j j' w' v') (Twin j j') := by
  have hbench : Bench.Twin j j' (c.bench w.store w.agency) (d.bench v.store v.agency) :=
    ⟨h.handle, h.twin.store, h.twin.agency⟩
  have k := Alike.iff_go.mp (hjob _ _ hbench)
  have hkept : ∀ {b b'}, Bench.Twin j j' b b' → Twin j j' (w.keeping c b) (v.keeping d b') :=
    fun hb => ⟨hb.store, h.twin.mailbox, hb.agency, h.twin.build, h.twin.metrics⟩
  rw [Alike.iff_go]
  simp only [work, go_of]
  revert k
  rcases job.go (c.bench w.store w.agency) with ⟨_ | x, b⟩ <;>
    rcases job.go (d.bench v.store v.agency) with ⟨_ | y, b'⟩
  · intro k
    exact ⟨k.1, hkept k.2⟩
  · exact fun k => k
  · exact fun k => k
  · intro k
    exact ⟨k.1, hkept k.2⟩

theorem count_respects (k : MetricKind) : Respects (Twin j j') (count k) := by
  refine .of_go fun w v h => ⟨rfl, h.store, h.mailbox, h.agency, h.build, fun i hi => ?_⟩
  show Metrics.count (v.metrics.record k) i = Metrics.count (w.metrics.record k) i
  rw [Metrics.count_record, Metrics.count_record, h.metrics i hi]

theorem send_respects (n : Notification) : Respects (Twin j j') (send n) := by
  refine .of_go fun w v h => ?_
  simp only [send, go_of]
  rw [h.mailbox]
  refine ⟨rfl, h.store, rfl, h.agency, h.build, fun i hi => ?_⟩
  simp only [Metrics.count_record, h.metrics i hi]

theorem announce_respects (id : NodeId) (x : Response) : Respects (Twin j j') (announce id x) := by
  unfold announce
  cases x.notification? id with
  | none => exact .pure x
  | some n => exact (send_respects n).bind fun _ => .pure x

/-- Work of one plugin at two benches, announced by its node. -/
theorem settle_alike (h : Acquired j j' c d w v r) {job : Act Bench Response}
    (hjob : Respects (Bench.Twin j j') job) :
    (work c job >>= announce c.handle.nodeId).Alike (work d job >>= announce d.handle.nodeId) w v
      (fun x y w' v' => x = y ∧ Twin j j' w' v') (Twin j j') := by
  refine (work_alike h hjob).bind fun x y w' v' k => ?_
  obtain ⟨rfl, k⟩ := k
  rw [h.handle]
  exact announce_respects _ x w' v' k

/-! ### Operations -/

theorem go_rebuild {p : Plugin} (h : w.build r.kind r.config = .ok p) :
    ((rebuild r).go w).1 = .ok (.ofRecord r p) := by
  rw [rebuild, buildPlugin, go_bind, go_of, h]
  rfl

/-- An operation that keeps both workshops coherent. -/
theorem Respects.of_alike {α : Type} {a : Act Workshop α}
    (h : ∀ w v, Pair j j' w v →
      a.Alike a w v (fun x y w' v' => x = y ∧ Twin j j' w' v') (Twin j j'))
    (hc : ∀ w, w.Coherent → (a.go w).2.Coherent) : Respects (Pair j j') a := by
  intro w v hp
  refine ((h w v hp).and_left (hc w hp.left) (hc v hp.right)).mono ?_ ?_
  · intro x y w' v' k
    exact ⟨k.1.1, k.1.2, k.2.1, k.2.2⟩
  · intro w' v' k
    exact ⟨k.1, k.2.1, k.2.2⟩

theorem init_respects (ctx : CallContext) (a : Activation) : Respects (Pair j j') (init ctx a) := by
  refine Respects.of_alike (fun w v h => ?_) fun w hw => (init_serves hw ctx a).coherent
  unfold init
  split
  · exact ⟨rfl, h.toTwin⟩
  · refine (activate_alike h a).bind fun c d w' v' k => ?_
    obtain ⟨r, k⟩ := k
    rw [k.plugin]
    exact settle_alike k (Bench.twin_benchwork.startBy (Plugin.start_respects c.plugin ctx))

theorem execute_respects (ctx : CallContext) (id : NodeId) (q : ActionRequest) :
    Respects (Pair j j') (execute ctx id q) := by
  refine Respects.of_alike (fun w v h => ?_) fun w hw => (execute_serves hw ctx id q).coherent
  unfold execute
  split
  · exact ⟨rfl, h.toTwin⟩
  · refine (resolve_alike h id).bind fun c d w' v' k => ?_
    obtain ⟨r, k, -⟩ := k
    rw [k.plugin]
    exact settle_alike k (Bench.twin_benchwork.executeBy (Plugin.execute_respects c.plugin ctx q))

theorem snapshot_respects (id : NodeId) : Respects (Pair j j') (snapshot id) := by
  refine Respects.of_alike (fun w v h => ?_) fun w hw => (snapshot_serves hw id).coherent
  refine (resolve_alike h id).bind fun c d w' v' k => ?_
  obtain ⟨r, k, -⟩ := k
  exact ⟨k.handle.symm, k.twin⟩

/-- Whether the task of a node has to fetch what it shows. -/
def Fetches (w : Workshop) (id : NodeId) : Prop :=
  ∃ r p, w.store.records.get? id = some r ∧ w.build r.kind r.config = .ok p ∧ p.Fetches

theorem render_alike (h : Pair j j' w v) {id : NodeId} (hid : ¬ w.Fetches id) (ctx : CallContext) :
    (render ctx id).Alike (render ctx id) w v (fun x y w' v' => x = y ∧ Twin j j' w' v')
      (Twin j j') := by
  refine (resolve_alike h id).bind fun c d w' v' k => ?_
  obtain ⟨r, k, hr, hb⟩ := k
  rw [k.plugin]
  exact work_alike k (Plugin.render_respects (fun hp => hid ⟨r, c.plugin, hr, hb, hp⟩) ctx)

/-- Between `w` and `w'` a task was shown. -/
structure Shown (w w' : Workshop) : Prop where
  records : w'.store.records = w.store.records
  up : w.store.Up → w'.store.Up
  mailbox : w'.mailbox = w.mailbox
  agency : w.agency.Like w'.agency
  build : w'.build = w.build
  metrics : ∀ k, k.ofCache = false → w'.metrics.count k = w.metrics.count k

theorem Kept.shown (h : Kept w w') : Shown w w' :=
  ⟨h.records, h.up, h.mailbox, h.agency ▸ .refl _, h.build, h.metrics⟩

theorem render_shown (hw : w.Coherent) (ctx : CallContext) (id : NodeId) :
    Shown w ((render ctx id).go w).2 := by
  refine ends_state.mp ?_
  rw [render, ends_bind]
  refine (resolve_ends hw id).mono (fun c w₁ h => ?_) fun _ w₁ h => h.1.shown
  obtain ⟨hkept, -⟩ := h
  have hshown : ∀ b, Bench.Shown (c.bench w₁.store w₁.agency) b → Shown w (w₁.keeping c b) := by
    intro b hb
    have hst : b.store = w₁.store := hb.store
    refine ⟨(congrArg _ hst).trans hkept.records, fun hup => ?_, hkept.mailbox, ?_, hkept.build,
      hkept.metrics⟩
    · show b.store.Up
      rw [hst]
      exact hkept.up hup
    · rw [← hkept.agency]
      exact hb.agency
  rw [ends_work]
  exact (Plugin.render_ends c.plugin ctx _).mono (fun _ b h => hshown b h) fun _ b h => hshown b h

/-- Whatever a task shows, it leaves the workshops as much alike as they were. -/
theorem Pair.render (h : Pair j j' w v) (ctx : CallContext) (id : NodeId) :
    Pair ((Workshop.render ctx id).go w).2.agency.journal
      ((Workshop.render ctx id).go v).2.agency.journal
      ((Workshop.render ctx id).go w).2 ((Workshop.render ctx id).go v).2 := by
  have hw := render_shown h.left ctx id
  have hv := render_shown h.right ctx id
  refine ⟨⟨⟨?_, hw.up h.store.left, hv.up h.store.right⟩, ?_, ?_, ?_, fun k hk => ?_⟩,
    (render_serves h.left ctx id).coherent, (render_serves h.right ctx id).coherent⟩
  · rw [hw.records, hv.records, h.store.records]
  · rw [hw.mailbox, hv.mailbox, h.mailbox]
  · exact (h.agency.like.change hw.agency hv.agency).twin
  · rw [hw.build, hv.build, h.build]
  · rw [hw.metrics k hk, hv.metrics k hk, h.metrics k hk]

end Alike

end Workshop

end Clearance
