import Clearance.Proofs.Tables
import Clearance.Proofs.Task.Bench
import Clearance.Task.Workshop

/-!
# Clearance — Proofs — Task — What an operation does to the workshop

* `Workshop.Coherent`: every cached container agrees with the record of its node, every record can
  be built again, and every queued notification is of a node that has a record.  All operations keep
  it.
* `Workshop.Calm` and `Workshop.Kept`: the part of the workshop that acquiring a container leaves
  alone, for a node to activate and for one that was activated before.
* `TaskRecord.standing`: how far a task is, as far as its node is to show it.
* `Workshop.Serves`: what an operation on a node does as the workflow layer sees it.  Either the
  standing of the node's task stays and nothing is sent, or the task moves on and one notification
  of it is sent.  No other task is touched.
* `Workshop.Inits`: activations one after the other, as the workflow layer makes them for the nodes
  it unlocks (`Workshop.register`) and for those a new instance starts with (`Workshop.initAll`).
-/

namespace Clearance

/-! ### Counters -/

/-- Whether the counter is one of the container cache and the plugins built for it. -/
def MetricKind.ofCache : MetricKind → Bool
  | .cacheHit | .cacheMiss | .cacheEviction | .pluginBuild => true
  | _ => false

@[simp] theorem Metrics.add_zero (m : Metrics) (k : MetricKind) : m.add 0 k = m := by
  cases k <;> rfl

theorem Metrics.count_add (m : Metrics) (k j : MetricKind) (n : Nat) :
    (m.add n k).count j = m.count j + if j = k then n else 0 := by
  cases k <;> cases j <;> rfl

theorem Metrics.count_record_ne (m : Metrics) {k j : MetricKind} (h : j ≠ k) :
    (m.record k).count j = m.count j := by
  rw [count_record, if_neg h, Nat.add_zero]

theorem Metrics.count_record_ofCache (m : Metrics) {k j : MetricKind} (hj : j.ofCache = true)
    (hk : k.ofCache = false) : (m.record j).count k = m.count k := by
  refine m.count_record_ne ?_
  rintro rfl
  exact Bool.false_ne_true (hk.symm.trans hj)

theorem Mailbox.send_fst (m : Mailbox) (n : Notification) : (m.send n).1 = m.accepts := by
  unfold send
  split
  · exact Eq.symm ‹_›
  · exact (Bool.not_eq_true _ ▸ ‹¬ m.accepts = true› : m.accepts = false).symm

theorem Mailbox.mem_queue_send {m : Mailbox} {n k : Notification} (h : k ∈ (m.send n).2.queue) :
    k ∈ m.queue ∨ k = n := by
  unfold send at h
  split at h
  · simpa using h
  · exact .inl h

namespace Workshop

/-! ### Coherence -/

/-- The container is the one of the stored record `r`. -/
structure Has (w : Workshop) (c : Container) (r : TaskRecord) : Prop where
  stored : w.store.records.get? r.id = some r
  copied : c.handle = .ofRecord r
  built : w.build r.kind r.config = .ok c.plugin

/-- What the workshop keeps in several places agrees. -/
structure Coherent (w : Workshop) : Prop where
  keyed : ∀ id r, w.store.records.get? id = some r → r.id = id
  buildable : ∀ id r, w.store.records.get? id = some r → ∃ p, w.build r.kind r.config = .ok p
  cached : ∀ id c, w.cache.entries.values.get? id = some c → ∃ r, r.id = id ∧ w.Has c r
  known : ∀ n ∈ w.mailbox.queue, ∃ r, w.store.records.get? n.nodeId = some r

theorem coherent_ofCapacity (containers notifications : Nat) :
    (ofCapacity containers notifications).Coherent where
  keyed _ _ h := nomatch h
  buildable _ _ h := nomatch h
  cached _ _ h := nomatch h
  known _ h := nomatch h

/-- Everything but the store's records and the cache with its counters is as it was. -/
structure Calm (w w' : Workshop) : Prop where
  mailbox : w'.mailbox = w.mailbox
  agency : w'.agency = w.agency
  build : w'.build = w.build
  onward : w.store.Onward w'.store
  metrics : ∀ k, k.ofCache = false → w'.metrics.count k = w.metrics.count k

theorem Calm.trans {w w₁ w₂ : Workshop} (h₁ : Calm w w₁) (h₂ : Calm w₁ w₂) : Calm w w₂ :=
  ⟨h₂.mailbox.trans h₁.mailbox, h₂.agency.trans h₁.agency, h₂.build.trans h₁.build,
    h₁.onward.trans h₂.onward, fun k hk => (h₂.metrics k hk).trans (h₁.metrics k hk)⟩

theorem Calm.up {w w' : Workshop} (h : Calm w w') (hup : w.store.Up) : w'.store.Up :=
  h.onward.up hup

/-- A workshop with the same records, the same cached containers or fewer, and the same queue. -/
theorem Coherent.of_eq {w w' : Workshop} (h : w.Coherent)
    (hs : w'.store.records = w.store.records) (hb : w'.build = w.build)
    (hc : ∀ id c, w'.cache.entries.values.get? id = some c →
      w.cache.entries.values.get? id = some c)
    (hq : ∀ n ∈ w'.mailbox.queue, n ∈ w.mailbox.queue) : w'.Coherent where
  keyed id r hr := h.keyed id r (hs ▸ hr)
  buildable id r hr := by
    rw [hb]
    exact h.buildable id r (hs ▸ hr)
  cached id c hr := by
    obtain ⟨r, hid, hr, hh, hp⟩ := h.cached id c (hc id c hr)
    exact ⟨r, hid, hs ▸ hr, hh, hb ▸ hp⟩
  known n hn := by
    rw [hs]
    exact h.known n (hq n hn)

/-- …and the records are as well, in a workshop that is coherent. -/
structure Kept (w w' : Workshop) : Prop extends Calm w w' where
  coherent : w'.Coherent
  records : w'.store.records = w.store.records

theorem Kept.refl {w : Workshop} (hw : w.Coherent) : Kept w w :=
  ⟨⟨rfl, rfl, rfl, .refl _, fun _ _ => rfl⟩, hw, rfl⟩

theorem Kept.trans {w w₁ w₂ : Workshop} (h₁ : Kept w w₁) (h₂ : Kept w₁ w₂) : Kept w w₂ where
  toCalm := h₁.toCalm.trans h₂.toCalm
  coherent := h₂.coherent
  records := h₂.records.trans h₁.records

theorem Kept.has {w w' : Workshop} (h : Kept w w') {c : Container} {r : TaskRecord}
    (hc : w.Has c r) : w'.Has c r where
  stored := h.records ▸ hc.stored
  copied := hc.copied
  built := h.build ▸ hc.built

/-- No container was added to the cache. -/
theorem Coherent.kept {w w' : Workshop} (hw : w.Coherent) (h : Calm w w')
    (hs : w'.store.records = w.store.records)
    (hc : ∀ id c, w'.cache.entries.values.get? id = some c →
      w.cache.entries.values.get? id = some c) : Kept w w' :=
  ⟨h, hw.of_eq hs h.build hc fun _ hn => h.mailbox ▸ hn, hs⟩

/-! ### Acquiring a container -/

section Acquiring

variable {w : Workshop}

theorem lookUp_ends (hw : w.Coherent) (id : NodeId) :
    (lookUp id).Ends w
      (fun c? w' => Kept w w' ∧ ∀ c, c? = some c → ∃ r, r.id = id ∧ w'.Has c r)
      fun _ _ => False := by
  obtain ⟨cache, hv, hf⟩ := w.cache.find_eq id
  have hkept : ∀ hit, Kept w { w with cache := cache, metrics := w.metrics.recordAccess hit } := by
    intro hit
    refine hw.kept ⟨rfl, rfl, rfl, .refl _, fun k hk => ?_⟩ rfl fun _ _ h => hv ▸ h
    exact w.metrics.count_record_ofCache (by cases hit <;> rfl) hk
  rw [lookUp, Act.ends_of]
  simp only [hf]
  cases hc : w.cache.entries.values.get? id with
  | none => exact ⟨hkept false, fun _ h => nomatch h⟩
  | some c =>
      refine ⟨hkept true, ?_⟩
      rintro _ ⟨⟩
      obtain ⟨r, hid, hr⟩ := hw.cached id c hc
      exact ⟨r, hid, (hkept true).has hr⟩

theorem cacheNew_ends (hw : w.Coherent) {c : Container} {r : TaskRecord} (hc : w.Has c r) :
    (cacheNew c).Ends w (fun _ w' => Kept w w') fun _ _ => False := by
  have hid : c.handle.nodeId = r.id := congrArg Handle.nodeId hc.copied
  rw [cacheNew, Act.ends_of, hid]
  refine ⟨⟨rfl, rfl, rfl, .refl _, fun k hk => ?_⟩,
    ⟨hw.keyed, hw.buildable, fun k x hx => ?_, hw.known⟩, rfl⟩
  · dsimp only
    split
    · exact w.metrics.count_record_ofCache rfl hk
    · rfl
  · -- an eviction takes containers away, and adds none
    rcases ContainerCache.of_get?_insert hx with ⟨rfl, rfl⟩ | hx
    · exact ⟨r, rfl, hc.stored, hc.copied, hc.built⟩
    · obtain ⟨r', hk, h⟩ := hw.cached k x hx
      exact ⟨r', hk, h.stored, h.copied, h.built⟩

theorem buildPlugin_ends (hw : w.Coherent) (kind : TaskKind) (config : Json) :
    (buildPlugin kind config).Ends w (fun p w' => Kept w w' ∧ w.build kind config = .ok p)
      fun e w' => Kept w w' ∧ w.build kind config = .error e := by
  have hkept : Kept w { w with metrics := w.metrics.record .pluginBuild } :=
    hw.kept ⟨rfl, rfl, rfl, .refl _, fun _ hk => w.metrics.count_record_ofCache rfl hk⟩ rfl
      fun _ _ h => h
  rw [buildPlugin, Act.ends_of]
  cases hb : w.build kind config with
  | error e => exact ⟨hkept, rfl⟩
  | ok p => exact ⟨hkept, rfl⟩

/-- A call to the store that writes nothing. -/
theorem Coherent.called (hw : w.Coherent) : Kept w { w with store := w.store.called } :=
  hw.kept ⟨rfl, rfl, rfl, ⟨rfl, rfl, Nat.le_succ _⟩, fun _ _ => rfl⟩ rfl fun _ _ h => h

theorem getRecord_ends (hw : w.Coherent) (id : NodeId) :
    (onStore (TaskStore.get id)).Ends w
      (fun r? w' => Kept w w' ∧ r? = w.store.records.get? id)
      fun e w' => Kept w w' ∧ w.store.FailedBy w'.store e := by
  rw [onStore, TaskStore.get, Act.ends_on, Act.ends_bind]
  exact TaskStore.enter_ends ⟨hw.called, rfl⟩ fun _ hno => ⟨hw.called, hno.failedBy⟩

/-- A node without a record may get one that its container can be built from. -/
theorem Coherent.inserted (hw : w.Coherent) {a : Activation} {p : Plugin}
    (hno : w.store.records.get? a.nodeId = none) (hp : w.build a.kind a.config = .ok p)
    {s : TaskStore} (hs : s.records = w.store.records.insert a.nodeId a.record) :
    Coherent { w with store := s } := by
  have hfind : ∀ {id r}, s.records.get? id = some r →
      id = a.nodeId ∧ r = a.record ∨ id ≠ a.nodeId ∧ w.store.records.get? id = some r :=
    fun h => Table.of_get?_insert (hs ▸ h)
  have hget : ∀ {id}, id ≠ a.nodeId → s.records.get? id = w.store.records.get? id := fun h => by
    rw [hs, Table.get?_insert_ne _ _ h]
  refine ⟨fun id r hr => ?_, fun id r hr => ?_, fun id c hc => ?_, fun n hn => ?_⟩
  · rcases hfind hr with ⟨rfl, rfl⟩ | ⟨-, hr⟩
    · rfl
    · exact hw.keyed id r hr
  · rcases hfind hr with ⟨rfl, rfl⟩ | ⟨-, hr⟩
    · exact ⟨p, hp⟩
    · exact hw.buildable id r hr
  · obtain ⟨r, hid, hr, hcopy, hb⟩ := hw.cached id c hc
    have hne : r.id ≠ a.nodeId := by
      intro e
      rw [e] at hr
      exact nomatch hno.symm.trans hr
    exact ⟨r, hid, (hget hne).trans hr, hcopy, hb⟩
  · obtain ⟨r, hr⟩ := hw.known n hn
    by_cases hid : n.nodeId = a.nodeId
    · exact ⟨a.record, by rw [hid, hs, Table.get?_insert_self]⟩
    · exact ⟨r, (hget hid).trans hr⟩

theorem createRecord_ends (hw : w.Coherent) {a : Activation} {p : Plugin}
    (hno : w.store.records.get? a.nodeId = none) (hp : w.build a.kind a.config = .ok p) :
    (onStore (TaskStore.create a.record)).Ends w
      (fun _ w' => Calm w w' ∧ w'.Coherent ∧
        w'.store.records = w.store.records.insert a.nodeId a.record)
      fun e w' => Kept w w' ∧ w.store.FailedBy w'.store e := by
  have hc : w.store.called.records.contains a.record.id = false := Table.contains_eq_false.mpr hno
  rw [onStore, TaskStore.create, TaskStore.add, Act.ends_on, Act.ends_bind]
  refine TaskStore.enter_ends ?_ fun _ hno => ⟨hw.called, hno.failedBy⟩
  rw [Act.ends_of, hc]
  exact ⟨⟨rfl, rfl, rfl, ⟨rfl, rfl, Nat.le_succ _⟩, fun _ _ => rfl⟩, hw.inserted hno hp rfl, rfl⟩

theorem rebuild_ends (hw : w.Coherent) {r : TaskRecord} (hr : w.store.records.get? r.id = some r) :
    (rebuild r).Ends w (fun c w' => Kept w w' ∧ w'.Has c r) fun _ _ => False := by
  rw [rebuild, Act.ends_bind]
  refine (buildPlugin_ends hw r.kind r.config).mono (fun p w' h => ?_) fun e w' h => ?_
  · obtain ⟨hkept, hp⟩ := h
    exact ⟨hkept, hkept.has ⟨hr, rfl, hp⟩⟩
  · obtain ⟨p, hp⟩ := hw.buildable r.id r hr
    exact nomatch hp.symm.trans h.2

/-- The container of a node is a cached one that agrees with the node's record, or a made one. -/
theorem acquire_ends (hw : w.Coherent) {id : NodeId} {make : Act Workshop Container}
    {ok : Container → Workshop → Prop} {fail : Failure → Workshop → Prop}
    (hcached : ∀ w' c r, Kept w w' → r.id = id → w'.Has c r → ok c w')
    (hmake : ∀ w₁, Kept w w₁ →
      make.Ends w₁
        (fun c w₂ => ∃ r, w₂.Coherent ∧ w₂.Has c r ∧ ∀ w₃, Kept w₂ w₃ → ok c w₃)
        fail) :
    (acquire id make).Ends w ok fail := by
  rw [acquire, Act.ends_bind]
  refine (lookUp_ends hw id).mono (fun c? w₁ h => ?_) fun _ _ h => h.elim
  obtain ⟨h₁, hhas⟩ := h
  cases c? with
  | some c =>
      obtain ⟨r, hid, hc⟩ := hhas c rfl
      exact hcached w₁ c r h₁ hid hc
  | none =>
      dsimp only
      rw [Act.ends_bind]
      refine (hmake w₁ h₁).mono (fun c w₂ h => ?_) fun _ _ h => h
      obtain ⟨r, hw₂, hc, hok⟩ := h
      rw [Act.ends_bind]
      exact (cacheNew_ends hw₂ hc).mono (fun _ w₃ h₃ => hok w₃ h₃) fun _ _ h => h.elim

/-- The container of a node that has a record; only a store that fails keeps it back. -/
theorem resolve_ends (hw : w.Coherent) (id : NodeId) :
    (resolve id).Ends w
      (fun c w' => Kept w w' ∧ ∃ r, w.store.records.get? id = some r ∧ w'.Has c r)
      fun e w' => Kept w w' ∧ (w.store.FailedBy w'.store e ∨
        w.store.records.get? id = none ∧ e = .noNode id) := by
  refine acquire_ends hw (fun w' c r h hid hc => ?_) fun w₁ h₁ => ?_
  · exact ⟨h, r, by rw [← hid, ← h.records, hc.stored], hc⟩
  rw [Act.ends_bind]
  refine (getRecord_ends h₁.coherent id).mono (fun r? w₂ h => ?_) fun e w₂ h => ?_
  · obtain ⟨h₂, rfl⟩ := h
    have h₁₂ := h₁.trans h₂
    rw [h₁.records]
    cases hr : w.store.records.get? id with
    | none => exact ⟨h₁₂, .inr ⟨rfl, rfl⟩⟩
    | some r =>
        have hst : w₂.store.records.get? r.id = some r := by
          rw [h₁₂.records, hw.keyed id r hr, hr]
        refine (rebuild_ends h₂.coherent hst).mono (fun c w₃ h => ?_) fun _ _ h => h.elim
        obtain ⟨h₃, hc⟩ := h
        exact ⟨r, h₃.coherent, hc, fun w₄ h₄ => ⟨(h₁₂.trans h₃).trans h₄, r, rfl, h₄.has hc⟩⟩
  · exact ⟨h₁.trans h.1, .inl (h₁.onward.failedBy h.2)⟩

/-- What creates the container of a node without a record. -/
def createNew (a : Activation) : Act Workshop Container := do
  let p ← buildPlugin a.kind a.config
  onStore (TaskStore.create a.record)
  pure (.ofRecord a.record p)

theorem createNew_ends (hw : w.Coherent) {a : Activation}
    (hno : w.store.records.get? a.nodeId = none) :
    (createNew a).Ends w
      (fun c w' => Calm w w' ∧ w'.Coherent ∧ w'.Has c a.record ∧
        w'.store.records = w.store.records.insert a.nodeId a.record)
      fun e w' => Kept w w' ∧
        (w.store.FailedBy w'.store e ∨ w.build a.kind a.config = .error e) := by
  rw [createNew, Act.ends_bind]
  refine (buildPlugin_ends hw a.kind a.config).mono (fun p w₁ h => ?_) fun e w₁ h => ?_
  · obtain ⟨h₁, hp⟩ := h
    have hno₁ : w₁.store.records.get? a.nodeId = none := h₁.records ▸ hno
    rw [Act.ends_bind]
    refine (createRecord_ends h₁.coherent hno₁ (h₁.build ▸ hp)).mono (fun _ w₂ h => ?_)
      fun e w₂ h => ?_
    · obtain ⟨h₂, hw₂, hs⟩ := h
      have hst : w₂.store.records.get? a.record.id = some a.record := by
        rw [hs]
        exact Table.get?_insert_self _ _ _
      rw [h₁.records] at hs
      exact ⟨h₁.toCalm.trans h₂, hw₂, ⟨hst, rfl, h₂.build ▸ h₁.build ▸ hp⟩, hs⟩
    · exact ⟨h₁.trans h.1, .inl (h₁.onward.failedBy h.2)⟩
  · exact ⟨h.1, .inr h.2⟩

/-- The record of a node once it is activated, and all the records then. -/
def begun (w : Workshop) (a : Activation) : TaskRecord × Table NodeId TaskRecord :=
  match w.store.records.get? a.nodeId with
  | some r => (r, w.store.records)
  | none => (a.record, w.store.records.insert a.nodeId a.record)

theorem begun_of_get? {a : Activation} {r : TaskRecord}
    (h : w.store.records.get? a.nodeId = some r) : w.begun a = (r, w.store.records) := by
  rw [begun, h]

theorem begun_of_none {a : Activation} (h : w.store.records.get? a.nodeId = none) :
    w.begun a = (a.record, w.store.records.insert a.nodeId a.record) := by
  rw [begun, h]

theorem id_begun (hw : w.Coherent) (a : Activation) : (w.begun a).1.id = a.nodeId := by
  cases hno : w.store.records.get? a.nodeId with
  | some r =>
      rw [begun_of_get? hno]
      exact hw.keyed _ r hno
  | none =>
      rw [begun_of_none hno]
      rfl

/-- The container of a node to activate: of the record it has, or of the one it is given.  With a
store that answers, only a configuration that cannot be built keeps it back. -/
theorem activate_ends (hw : w.Coherent) (a : Activation) :
    (acquire a.nodeId (create a)).Ends w
      (fun c w' => Calm w w' ∧ w'.Coherent ∧ w'.Has c (w.begun a).1 ∧
        w'.store.records = (w.begun a).2)
      fun e w' => Kept w w' ∧ (w.store.FailedBy w'.store e ∨
        w.store.records.get? a.nodeId = none ∧ w.build a.kind a.config = .error e) := by
  refine acquire_ends hw (fun w' c r h hid hc => ?_) fun w₁ h₁ => ?_
  · rw [begun_of_get? (by rw [← hid, ← h.records, hc.stored])]
    exact ⟨h.toCalm, h.coherent, hc, h.records⟩
  rw [create, Act.ends_bind]
  refine (getRecord_ends h₁.coherent a.nodeId).mono (fun r? w₂ h => ?_) fun e w₂ h => ?_
  · obtain ⟨h₂, rfl⟩ := h
    have h₁₂ := h₁.trans h₂
    rw [h₁.records]
    cases hr : w.store.records.get? a.nodeId with
    | some r =>
        have hst : w₂.store.records.get? r.id = some r := by
          rw [h₁₂.records, hw.keyed _ r hr, hr]
        rw [begun_of_get? hr]
        refine (rebuild_ends h₂.coherent hst).mono (fun c w₃ h => ?_) fun _ _ h => h.elim
        obtain ⟨h₃, hc⟩ := h
        refine ⟨r, h₃.coherent, hc, fun w₄ h₄ => ?_⟩
        have hall := (h₁₂.trans h₃).trans h₄
        exact ⟨hall.toCalm, hall.coherent, h₄.has hc, hall.records⟩
    | none =>
        rw [begun_of_none hr]
        refine (createNew_ends h₂.coherent (h₁₂.records ▸ hr)).mono (fun c w₃ h => ?_)
          fun e w₃ h => ?_
        · obtain ⟨h₃, hw₃, hc, hs⟩ := h
          rw [h₁₂.records] at hs
          refine ⟨_, hw₃, hc, fun w₄ h₄ => ?_⟩
          exact ⟨(h₁₂.toCalm.trans h₃).trans h₄.toCalm, h₄.coherent, h₄.has hc, h₄.records.trans hs⟩
        · refine ⟨h₁₂.trans h.1, h.2.imp h₁₂.onward.failedBy fun hb => ?_⟩
          exact ⟨rfl, h₁₂.build ▸ hb⟩
  · exact ⟨h₁.trans h.1, .inl (h₁.onward.failedBy h.2)⟩

end Acquiring

/-! ### Working -/

/-- The workshop after the plugin of a container left its bench as `b`. -/
def keeping (w : Workshop) (c : Container) (b : Bench) : Workshop :=
  { w with
    store := b.store
    agency := b.agency
    cache := w.cache.keep c.handle.nodeId (c.after b) }

theorem ends_work {α : Type} {w : Workshop} {c : Container} {job : Act Bench α}
    {ok : α → Workshop → Prop} {fail : Failure → Workshop → Prop} :
    (work c job).Ends w ok fail ↔
      job.Ends (c.bench w.store w.agency) (fun x b => ok x (w.keeping c b))
        fun e b => fail e (w.keeping c b) := by
  simp only [work, Act.Ends, Act.go_of]
  rcases job.go (c.bench w.store w.agency) with ⟨_ | _, _⟩ <;> rfl

theorem Has.bench_at {w : Workshop} {c : Container} {r : TaskRecord} (h : w.Has c r) :
    (c.bench w.store w.agency).At r :=
  ⟨h.stored, h.copied⟩

/-- A plugin that changes only its own record, and not what it is built from, leaves the workshop
coherent. -/
theorem Coherent.keeping {w : Workshop} (hw : w.Coherent) {c : Container} {r r' : TaskRecord}
    (hc : w.Has c r) {b : Bench} (hb : b.At r') (hid : r'.id = r.id) (hkind : r'.kind = r.kind)
    (hconfig : r'.config = r.config)
    (he : ∀ id, id ≠ r.id → b.store.records.get? id = w.store.records.get? id) :
    (w.keeping c b).Coherent := by
  have hnode : c.handle.nodeId = r.id := congrArg Handle.nodeId hc.copied
  have hr' : b.store.records.get? r.id = some r' := hid ▸ hb.stored
  have hb' : w.build r'.kind r'.config = .ok c.plugin := by rw [hkind, hconfig, hc.built]
  refine ⟨fun id x hx => ?_, fun id x hx => ?_, fun id x hx => ?_, fun n hn => ?_⟩
  · by_cases h : id = r.id
    · subst h
      obtain rfl := Option.some.inj (hr'.symm.trans hx)
      exact hid
    · exact hw.keyed id x (he id h ▸ hx)
  · by_cases h : id = r.id
    · subst h
      obtain rfl := Option.some.inj (hr'.symm.trans hx)
      exact ⟨_, hb'⟩
    · exact hw.buildable id x (he id h ▸ hx)
  · rcases ContainerCache.of_get?_keep hx with ⟨rfl, rfl⟩ | ⟨hne, hx⟩
    · exact ⟨r', hid.trans hnode.symm, hb.stored, hb.copied, hb'⟩
    · obtain ⟨y, hy, hst, hcopy, hbuilt⟩ := hw.cached id x hx
      -- the container of another node is of another record, which nobody touched
      have hne' : y.id ≠ r.id := fun e => hne (hy.symm.trans (e.trans hnode.symm))
      exact ⟨y, hy, (he y.id hne').trans hst, hcopy, hbuilt⟩
  · obtain ⟨x, hx⟩ := hw.known n hn
    by_cases h : n.nodeId = r.id
    · exact ⟨r', h ▸ hr'⟩
    · exact ⟨x, (he _ h).trans hx⟩

end Workshop

/-! ### What the workflow layer sees -/

/-- How far a task is: the state its node is to have and, once the task has moved, the plugin state
the node is to show. -/
def TaskRecord.standing (r : TaskRecord) : NodeState × Option String :=
  if r.state = .initialized then (.ready, none) else (.ofLifecycle r.state, r.pluginState)

theorem TaskRecord.standing_fst (r : TaskRecord) : r.standing.1 = .ofLifecycle r.state := by
  unfold standing
  split
  · rename_i h
    rw [h]
    rfl
  · rfl

theorem TaskRecord.Drafts.standing_eq {r r' : TaskRecord} (h : r.Drafts r') :
    r'.standing = r.standing := by
  obtain ⟨l, p, rfl, hp⟩ := h
  unfold standing
  by_cases hs : r.state = .initialized
  · simp [hs]
  · simp [hs, hp hs]

/-- What a task may move to, its node may advance to. -/
theorem Lifecycle.canAdvanceTo_of_canMoveTo {l m : Lifecycle} (h : l.canMoveTo m) :
    (NodeState.ofLifecycle l).canAdvanceTo (.ofLifecycle m) ∧ m ≠ .initialized := by
  revert h
  cases l <;> cases m <;> decide

theorem NodeState.ofLifecycle_injective : Function.Injective NodeState.ofLifecycle := by
  intro l m
  cases l <;> cases m <;> decide

namespace Workshop

/-- How far the task of a node is; a node without a record is ready. -/
def standing (w : Workshop) (id : NodeId) : NodeState × Option String :=
  ((w.store.records.get? id).map TaskRecord.standing).getD (.ready, none)

theorem standing_of_get? {w : Workshop} {id : NodeId} {r : TaskRecord}
    (h : w.store.records.get? id = some r) : w.standing id = r.standing := by
  rw [standing, h]
  rfl

theorem standing_of_none {w : Workshop} {id : NodeId} (h : w.store.records.get? id = none) :
    w.standing id = (.ready, none) := by
  rw [standing, h]
  rfl

/-- Nothing is sent, and the task of the node stays where it is. -/
structure Still (id : NodeId) (w w' : Workshop) : Prop where
  mailbox : w'.mailbox = w.mailbox
  standing : w'.standing id = w.standing id
  dropped : w'.metrics.count .notificationDropped = w.metrics.count .notificationDropped

/-- The task of the node moves on, and one notification of it is sent. -/
structure MovesOn (id : NodeId) (w w' : Workshop) (note : Notification) (l : Lifecycle)
    (x : String) : Prop where
  node : note.nodeId = id
  lifecycle : note.lifecycle = some l.text
  extendedState : note.extendedState = some x
  legal : (w.standing id).1.canAdvanceTo (.ofLifecycle l)
  started : l ≠ .initialized
  standing : w'.standing id = (.ofLifecycle l, some x)
  mailbox : w'.mailbox = (w.mailbox.send note).2
  dropped : w'.metrics.count .notificationDropped =
    w.metrics.count .notificationDropped + if w.mailbox.accepts then 0 else 1

/-- What an operation on a node does. -/
structure Serves (id : NodeId) (w w' : Workshop) : Prop where
  coherent : w'.Coherent
  build : w'.build = w.build
  elsewhere : ∀ k, k ≠ id → w'.store.records.get? k = w.store.records.get? k
  outcome : Still id w w' ∨ ∃ note l x, MovesOn id w w' note l x

section Serving

variable {w : Workshop} {c : Container} {r : TaskRecord}

/-- What precedes an operation and does not show goes with it. -/
theorem Serves.of_calm {id : NodeId} {w w₁ w₂ : Workshop} (h : Calm w w₁)
    (hs : w₁.standing id = w.standing id)
    (he : ∀ k, k ≠ id → w₁.store.records.get? k = w.store.records.get? k)
    (k : Serves id w₁ w₂) : Serves id w w₂ where
  coherent := k.coherent
  build := k.build.trans h.build
  elsewhere x hx := (k.elsewhere x hx).trans (he x hx)
  outcome := by
    have hd := h.metrics .notificationDropped rfl
    rcases k.outcome with o | ⟨note, l, x, o⟩
    · exact .inl ⟨o.mailbox.trans h.mailbox, o.standing.trans hs, o.dropped.trans hd⟩
    · refine .inr ⟨note, l, x, o.node, o.lifecycle, o.extendedState, hs ▸ o.legal, o.started,
        o.standing, ?_, ?_⟩
      · rw [o.mailbox, h.mailbox]
      · rw [o.dropped, hd, h.mailbox]

theorem Kept.serves {id : NodeId} {w w' : Workshop} (h : Kept w w') : Serves id w w' :=
  ⟨h.coherent, h.build, fun _ _ => by rw [h.records],
    .inl ⟨h.mailbox, by rw [standing, standing, h.records], h.metrics .notificationDropped rfl⟩⟩

theorem serves_of_works (hw : w.Coherent) (hc : w.Has c r) {b : Bench}
    (hb : Bench.Works (c.bench w.store w.agency) b) : Serves r.id w (w.keeping c b) := by
  obtain ⟨r', r₁, hr', h₁, hd, he⟩ := hb
  obtain rfl := hc.bench_at.unique hr'
  have hst : b.store.records.get? r.id = some r₁ := hd.id_eq ▸ h₁.stored
  obtain ⟨l, p, rfl, hp⟩ := id hd
  refine ⟨hw.keeping hc h₁ rfl rfl rfl he, rfl, he, .inl ⟨rfl, ?_, rfl⟩⟩
  rw [standing_of_get? hst, standing_of_get? hc.stored, hd.standing_eq]

/-- A response that asks for no move is announced to nobody; one that asks for a move is announced
by one notification. -/
theorem announce_ends (hw : w.Coherent) (hc : w.Has c r) {b : Bench} {x : Response}
    (hb : Bench.Settled x (c.bench w.store w.agency) b) :
    (announce r.id x).Ends (w.keeping c b) (fun y w' => y = x ∧ Serves r.id w w')
      fun _ _ => False := by
  unfold announce
  rcases hb with ⟨hx, hb⟩ | ⟨next, s, hx, hs, r', l, hr', h₁, hmove, he⟩
  · have hno : x.notification? r.id = none := by rw [Response.notification?, hx]; rfl
    rw [hno]
    exact ⟨rfl, serves_of_works hw hc hb⟩
  · obtain rfl := hc.bench_at.unique hr'
    have hsome : x.notification? r.id =
        some ⟨r.id, some next.text, x.extendedState, x.outcome, x.contextUpdates⟩ := by
      rw [Response.notification?, hx]
      rfl
    have hcoh := hw.keeping hc h₁ rfl rfl rfl he
    obtain ⟨hlegal, hstart⟩ := Lifecycle.canAdvanceTo_of_canMoveTo hmove
    have hst : b.store.records.get? r.id = some
        { r with state := next, pluginState := some s, localState := l } := h₁.stored
    rw [hsome]
    dsimp only
    rw [Act.ends_bind]
    rw [send, Act.ends_of]
    refine ⟨rfl, ⟨hcoh.keyed, hcoh.buildable, fun id y hy => ?_, fun n hn => ?_⟩, rfl, he, .inr
      ⟨_, next, s, rfl, rfl, hs, ?_, hstart, ?_, rfl, ?_⟩⟩
    · obtain ⟨z, hid, hz⟩ := hcoh.cached id y hy
      exact ⟨z, hid, hz.stored, hz.copied, hz.built⟩
    · -- queued or dropped, the notification is of a node with a record
      rcases Mailbox.mem_queue_send hn with hn | rfl
      · exact hcoh.known n hn
      · exact ⟨_, hst⟩
    · rw [standing_of_get? hc.stored, TaskRecord.standing_fst]
      exact hlegal
    · rw [standing_of_get? (w := { w.keeping c b with mailbox := _, metrics := _ }) hst]
      exact if_neg hstart
    · show Metrics.count (Metrics.record w.metrics (if (w.mailbox.send _).1 then _ else _)) _ = _
      rw [Metrics.count_record, Mailbox.send_fst]
      cases w.mailbox.accepts <;> rfl

end Serving

/-! ### The operations -/

section Operations

variable {w : Workshop}

/-- A job of the plugin, and the announcement of its response. -/
theorem settle_serves {c : Container} {r : TaskRecord} (hw : w.Coherent) (hc : w.Has c r)
    {job : Act Bench Response}
    (hj : job.Ends (c.bench w.store w.agency)
      (fun x b => Bench.Settled x (c.bench w.store w.agency) b)
      fun _ b => Bench.Works (c.bench w.store w.agency) b) :
    (work c job >>= announce r.id).Ends w (fun _ w' => Serves r.id w w')
      fun _ w' => Serves r.id w w' := by
  rw [Act.ends_bind, ends_work]
  refine hj.mono (fun x b h => ?_) fun _ b h => serves_of_works hw hc h
  exact (announce_ends hw hc h).mono (fun _ _ k => k.2) fun _ _ k => k.elim

/-- A node is activated. -/
theorem init_serves (hw : w.Coherent) (ctx : CallContext) (a : Activation) :
    Serves a.nodeId w ((init ctx a).go w).2 := by
  refine Act.ends_state.mp ?_
  simp only [init, Act.ends_bind, Act.ends_ite, Act.ends_throw]
  split
  · exact (Kept.refl hw).serves
  · refine (activate_ends hw a).mono (fun c w₁ h => ?_) fun _ w₁ h => h.1.serves
    obtain ⟨hcalm, hw₁, hc, hr⟩ := h
    have hnode : c.handle.nodeId = (w.begun a).1.id := congrArg Handle.nodeId hc.copied
    -- a new record stands where its node stood without one
    have hsame : (w.begun a).1.id = a.nodeId ∧ w₁.standing a.nodeId = w.standing a.nodeId ∧
        ∀ k, k ≠ a.nodeId → w₁.store.records.get? k = w.store.records.get? k := by
      cases hno : w.store.records.get? a.nodeId with
      | some r =>
          rw [begun_of_get? hno] at hr ⊢
          exact ⟨hw.keyed _ r hno, by rw [standing, standing, hr], fun _ _ => by rw [hr]⟩
      | none =>
          rw [begun_of_none hno] at hc hr ⊢
          refine ⟨rfl, ?_, fun k hk => by rw [hr, Table.get?_insert_ne _ _ hk]⟩
          have hst : w₁.standing a.nodeId = a.record.standing := standing_of_get? hc.stored
          rw [hst, standing_of_none hno]
          rfl
    obtain ⟨hid, hstand, helse⟩ := hsame
    have hjob := Bench.startBy_ends hc.bench_at (Plugin.start_works hc.bench_at c.plugin ctx)
    have hs := settle_serves hw₁ hc hjob
    rw [hnode, ← Act.ends_bind]
    rw [hid] at hs ⊢
    exact hs.mono (fun _ _ k => .of_calm hcalm hstand helse k)
      fun _ _ k => .of_calm hcalm hstand helse k

/-- What follows the container of a node that was activated before. -/
theorem resolve_serves (hw : w.Coherent) {id : NodeId} {α : Type}
    {next : Container → Act Workshop α}
    (hn : ∀ c r w₁, r.id = id → w₁.Coherent → w₁.Has c r →
      (next c).Ends w₁ (fun _ w₂ => Serves id w₁ w₂) fun _ w₂ => Serves id w₁ w₂) :
    Serves id w ((resolve id >>= next).go w).2 := by
  refine Act.ends_state.mp ?_
  rw [Act.ends_bind]
  refine (resolve_ends hw id).mono (fun c w₁ h => ?_) fun _ w₁ h => h.1.serves
  obtain ⟨hkept, r, hr, hc⟩ := h
  have hst : w₁.standing id = w.standing id := by rw [standing, standing, hkept.records]
  have he : ∀ k, k ≠ id → w₁.store.records.get? k = w.store.records.get? k := fun _ _ => by
    rw [hkept.records]
  exact (hn c r w₁ (hw.keyed id r hr) hkept.coherent hc).mono
    (fun _ _ k => .of_calm hkept.toCalm hst he k) fun _ _ k => .of_calm hkept.toCalm hst he k

/-- One action is run on a node. -/
theorem execute_serves (hw : w.Coherent) (ctx : CallContext) (id : NodeId) (q : ActionRequest) :
    Serves id w ((execute ctx id q).go w).2 := by
  unfold execute
  by_cases hq : Text.isBlankText q.action = true
  · rw [if_pos hq]
    exact (Kept.refl hw).serves
  · rw [if_neg hq]
    refine resolve_serves hw fun c r w₁ hid hw₁ hc => ?_
    have hnode : c.handle.nodeId = r.id := congrArg Handle.nodeId hc.copied
    have hjob := Bench.executeBy_ends hc.bench_at (Plugin.execute_works hc.bench_at c.plugin ctx q)
    have hs := settle_serves hw₁ hc hjob
    rw [hid] at hs
    rw [hnode, hid]
    exact hs

/-- A node is rendered. -/
theorem render_serves (hw : w.Coherent) (ctx : CallContext) (id : NodeId) :
    Serves id w ((render ctx id).go w).2 := by
  refine resolve_serves hw fun c r w₁ hid hw₁ hc => ?_
  rw [ends_work, ← hid]
  exact Act.Ends.mono (Plugin.render_works hc.bench_at c.plugin ctx)
    (fun _ _ h => serves_of_works hw₁ hc h.1) fun _ _ h => serves_of_works hw₁ hc h

/-- The live task of a node is copied. -/
theorem snapshot_serves (hw : w.Coherent) (id : NodeId) :
    Serves id w ((snapshot id).go w).2 :=
  resolve_serves hw fun _ _ _ _ hw₁ _ => (Kept.refl hw₁).serves

/-- No record changes and nothing is sent. -/
def Unmoved (w w' : Workshop) : Prop :=
  w'.store.records = w.store.records ∧ w'.mailbox = w.mailbox

/-- Nothing follows on a node that was never activated. -/
theorem resolve_absent (hw : w.Coherent) {id : NodeId} (hno : w.store.records.get? id = none)
    {α : Type} {next : Container → Act Workshop α} : Unmoved w ((resolve id >>= next).go w).2 := by
  refine Act.ends_state.mp ?_
  rw [Act.ends_bind]
  refine (resolve_ends hw id).mono (fun c w₁ h => ?_) fun _ w₁ h => ⟨h.1.records, h.1.mailbox⟩
  obtain ⟨-, r, hr, -⟩ := h
  exact nomatch hno.symm.trans hr

theorem execute_absent (hw : w.Coherent) {id : NodeId} (hno : w.store.records.get? id = none)
    (ctx : CallContext) (q : ActionRequest) : Unmoved w ((execute ctx id q).go w).2 := by
  unfold execute
  by_cases hq : Text.isBlankText q.action = true
  · rw [if_pos hq]
    exact ⟨rfl, rfl⟩
  · rw [if_neg hq]
    exact resolve_absent hw hno

theorem render_absent (hw : w.Coherent) {id : NodeId} (hno : w.store.records.get? id = none)
    (ctx : CallContext) : Unmoved w ((render ctx id).go w).2 :=
  resolve_absent hw hno

theorem snapshot_absent (hw : w.Coherent) {id : NodeId} (hno : w.store.records.get? id = none) :
    Unmoved w ((snapshot id).go w).2 :=
  resolve_absent hw hno

end Operations

/-! ### One operation after another -/

/-- `w'` is left by operations on nodes that `P` holds of, with counts in between. -/
inductive Served (P : NodeId → Prop) (w : Workshop) : Workshop → Prop
  | refl : Served P w w
  | serve {w₁ w₂ : Workshop} {id : NodeId} (h : Served P w w₁) (hid : P id)
      (hs : Serves id w₁ w₂) : Served P w w₂
  | count {w₁ : Workshop} {k : MetricKind} (h : Served P w w₁) (hk : k ≠ .notificationDropped) :
      Served P w { w₁ with metrics := w₁.metrics.record k }

namespace Served

variable {P : NodeId → Prop} {w w₁ : Workshop}

theorem coherent (h : Served P w w₁) (hw : w.Coherent) : w₁.Coherent := by
  induction h with
  | refl => exact hw
  | serve _ _ hs => exact hs.coherent
  | count _ _ ih => exact ih.of_eq rfl rfl (fun _ _ h => h) fun _ h => h

end Served

/-! ### Activations by the workflow layer -/

/-- The workshop after the activation of a node that was unlocked.  One that fails is counted. -/
def register (w : Workshop) (a : Activation) : Workshop :=
  match (init {} a).go w with
  | (.ok _, w') => w'
  | (.error _, w') => { w' with metrics := w'.metrics.record .unlockRegistrationFailed }

/-- Activates nodes one after the other, up to the first that fails. -/
def initAll : List Activation → Act Workshop Unit
  | [] => pure ()
  | a :: rest => do
    let _ ← init {} a
    initAll rest

/-- The activations among these that are made until one has failed. -/
def attempted (w : Workshop) : List Activation → List Activation
  | [] => []
  | a :: rest =>
    match (init {} a).go w with
    | (.ok _, w') => a :: attempted w' rest
    | (.error _, _) => [a]

/-- `w'` is left by these activations, one after the other, with counts in between. -/
inductive Inits (w : Workshop) : List Activation → Workshop → Prop
  | nil : Inits w [] w
  | init {as : List Activation} {w₁ : Workshop} (h : Inits w as w₁) (a : Activation) :
      Inits w (as ++ [a]) ((Workshop.init {} a).go w₁).2
  | count {as : List Activation} {w₁ : Workshop} {k : MetricKind} (h : Inits w as w₁)
      (hk : k ≠ .notificationDropped) : Inits w as { w₁ with metrics := w₁.metrics.record k }

namespace Inits

variable {P : NodeId → Prop} {w w₁ : Workshop} {as : List Activation}

/-- Something may be counted any number of times. -/
theorem counts {k : MetricKind} (h : Inits w as w₁) (hk : k ≠ .notificationDropped) (n : Nat) :
    Inits w as { w₁ with metrics := w₁.metrics.add n k } := by
  induction n with
  | zero => rwa [Metrics.add_zero]
  | succ n ih =>
      have hadd : w₁.metrics.add (n + 1) k = (w₁.metrics.add n k).record k := by
        cases k <;> rfl
      rw [hadd]
      exact .count ih hk

/-- However many of them fail, all activations of unlocked nodes are made. -/
theorem registers (h : Inits w as w₁) (bs : List Activation) :
    Inits w (as ++ bs) (bs.foldl register w₁) := by
  induction bs generalizing as w₁ with
  | nil =>
      rw [List.append_nil]
      exact h
  | cons a rest ih =>
      have ha := h.init a
      rw [List.append_cons]
      refine ih ?_
      unfold register
      rcases hgo : (Workshop.init {} a).go w₁ with ⟨_ | _, w₂⟩
      · rw [hgo] at ha
        exact ha.count (by decide)
      · rw [hgo] at ha
        exact ha

/-- The starting tasks of an instance are activated up to the first that fails. -/
theorem initAll (h : Inits w as w₁) (bs : List Activation) :
    Inits w (as ++ w₁.attempted bs) ((Workshop.initAll bs).go w₁).2 := by
  induction bs generalizing as w₁ with
  | nil =>
      rw [attempted, List.append_nil]
      exact h
  | cons a rest ih =>
      have ha := h.init a
      rw [Workshop.initAll, Act.go_bind, attempted]
      rcases hgo : (Workshop.init {} a).go w₁ with ⟨_ | _, w₂⟩
      · rw [hgo] at ha
        exact ha
      · rw [hgo] at ha
        rw [List.append_cons]
        exact ih ha

theorem of_initAll {r : Except Failure Unit} (h : (Workshop.initAll as).go w = (r, w₁)) :
    Inits w (w.attempted as) w₁ := by
  have hall := Inits.initAll (.nil (w := w)) as
  rw [h] at hall
  exact hall

theorem served (h : Inits w as w₁) (hw : w.Coherent) (hP : ∀ a ∈ as, P a.nodeId) :
    Served P w w₁ := by
  induction h with
  | nil => exact .refl
  | init _ a ih =>
      obtain ⟨hbefore, ha⟩ := List.forall_mem_append.mp hP
      have hs := ih hbefore
      exact .serve hs (ha a List.mem_cons_self) (init_serves (hs.coherent hw) {} a)
  | count _ hk ih => exact .count (ih hP) hk

end Inits

/-- Activations that all succeed are all made. -/
theorem attempted_of_ok {w w' : Workshop} {as : List Activation}
    (h : (initAll as).go w = (.ok (), w')) : w.attempted as = as := by
  induction as generalizing w with
  | nil => rfl
  | cons a rest ih =>
      rw [initAll, Act.go_bind] at h
      rw [attempted]
      rcases hgo : (init {} a).go w with ⟨_ | _, w₁⟩
      · rw [hgo] at h
        exact nomatch h
      · rw [hgo] at h
        exact congrArg (a :: ·) (ih h)

theorem attempted_initial (w : Workshop) (as : List Activation) : w.attempted as <+: as := by
  induction as generalizing w with
  | nil => exact List.prefix_rfl
  | cons a rest ih =>
      rw [attempted]
      rcases (init {} a).go w with ⟨_ | _, w₁⟩
      · exact ⟨rest, rfl⟩
      · exact List.cons_prefix_cons.mpr ⟨rfl, ih w₁⟩

end Workshop

end Clearance
