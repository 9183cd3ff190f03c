import Clearance.Proofs.Task.Accounts
import Clearance.Proofs.Task.Fork
import Clearance.Proofs.Task.Legal

/-!
# Clearance — Proofs — Task — Calls in a cancelled context

* `Workshop.Elsewhere`: the same workshop with another journal of the agencies, and whatever in its
  cache.
* `Workshop.Stopped`: what a call leaves that was cancelled before it called an agency.
* `Workshop.Cancels`: a call in a cancelled context is the same call in a fresh one, or it stops and
  can be made again.
* `Workshop.Call.clean`: so it is for every call.
-/

namespace Clearance

open Act

theorem ContainerCache.keep_of_get? {ρ : Type} {c : ContainerCache ρ} {id : NodeId} {r : ρ}
    (h : c.entries.values.get? id = some r) : c.keep id r = c := by
  rw [keep, Lru.set, if_pos (Table.contains_iff.mpr ⟨r, h⟩), Table.insert_of_get? h]

namespace Workshop

variable {w v w' w₁ : Workshop} {j j' : List AgencyCall}

/-! ### Another journal -/

/-- The same workshop with another journal, but for the cache and its counters. -/
structure Elsewhere (j j' : List AgencyCall) (w v : Workshop) : Prop where
  store : v.store = w.store
  mailbox : v.mailbox = w.mailbox
  agency : w.agency.Elsewhere j j' v.agency
  metrics : ∀ k, k.ofCache = false → v.metrics.count k = w.metrics.count k

theorem work_elsewhere {α : Type} (c : Container) {job : Act Bench α}
    (hjob : Respects (Bench.Elsewhere j j') job) : Respects (Elsewhere j j') (work c job) := by
  refine .of_go fun w v h => ?_
  have hbench : (c.bench w.store w.agency).Elsewhere j j' (c.bench v.store v.agency) :=
    ⟨rfl, rfl, h.store, h.agency⟩
  obtain ⟨hanswer, hleft⟩ := hjob.go_eq hbench
  exact ⟨hanswer, hleft.store, h.mailbox, hleft.agency, h.metrics⟩

theorem announce_elsewhere (id : NodeId) (x : Response) :
    Respects (Elsewhere j j') (announce id x) := by
  unfold announce
  cases x.notification? id with
  | none => exact .pure x
  | some n =>
      refine .bind (.of_go fun w v h => ?_) fun _ => .pure x
      simp only [send, go_of]
      rw [h.mailbox]
      refine ⟨rfl, h.store, rfl, h.agency, fun k hk => ?_⟩
      simp only [Metrics.count_record, h.metrics k hk]

/-! ### Stopping -/

/-- What a cancelled call leaves: these records, a call that was not sent, and nothing announced. -/
structure Stopped (records : Table NodeId TaskRecord) (w w' : Workshop) : Prop where
  records : w'.store.records = records
  noted : ∃ call, call.sent = false ∧ w'.agency = w.agency.note call
  sends : Sends none w w'

/-- In a cancelled context an action does what it does in a fresh one if that calls nobody.
Otherwise it stops, and then the fresh one does what it would have done. -/
def Cancels {α : Type} (records : Table NodeId TaskRecord) (fresh cancelled : Act Workshop α)
    (w : Workshop) : Prop :=
  cancelled.go w = fresh.go w ∧ (fresh.go w).2.agency.journal = w.agency.journal ∨
    (fresh.go w).2.agency.journal ≠ w.agency.journal ∧
      ∃ url w', cancelled.go w = (.error (.callCancelled url), w') ∧ Stopped records w w' ∧
        (fresh.go w').1 = (fresh.go w).1 ∧
        Elsewhere w.agency.journal w'.agency.journal (fresh.go w).2 (fresh.go w').2

/-- What a plugin does not do when it is cancelled is not announced either. -/
theorem work_forks {α β : Type} {job job' : Act Bench α} (hfork : Forks job job')
    {next : α → Act Workshop β} (hnext : ∀ x w, ((next x).go w).2.agency = w.agency)
    {c : Container} (hc : w.cache.entries.values.get? c.handle.nodeId = some c) :
    (work c job' >>= next).go w = (work c job >>= next).go w ∧
        ((work c job >>= next).go w).2.agency.journal = w.agency.journal ∨
      ((work c job >>= next).go w).2.agency.journal ≠ w.agency.journal ∧
        ∃ url call, call.sent = false ∧ (work c job' >>= next).go w =
          (.error (.callCancelled url), { w with agency := w.agency.note call }) := by
  have hwork : ∀ job : Act Bench α, (work c job).go w =
      ((job.go (c.bench w.store w.agency)).1, w.keeping c (job.go (c.bench w.store w.agency)).2) :=
    fun _ => rfl
  have hsame : ((work c job >>= next).go w).2.agency =
      (job.go (c.bench w.store w.agency)).2.agency := by
    rw [go_bind, hwork]
    rcases job.go (c.bench w.store w.agency) with ⟨_ | x, b⟩
    · rfl
    · exact hnext x _
  rw [hsame]
  rcases hfork (c.bench w.store w.agency) with ⟨heq, hj⟩ | ⟨hj, url, call, hsent, heq⟩
  · refine .inl ⟨?_, hj⟩
    rw [go_bind, go_bind, hwork, hwork, heq]
  · refine .inr ⟨hj, url, call, hsent, ?_⟩
    rw [go_bind, hwork, heq]
    -- the container is kept as it was found
    have hkeep := ContainerCache.keep_of_get? hc
    show (Except.error _, { w with agency := _, cache := w.cache.keep c.handle.nodeId c }) = _
    rw [hkeep]
    rfl

theorem announce_agency (id : NodeId) (x : Response) (w : Workshop) :
    ((announce id x).go w).2.agency = w.agency := by
  unfold announce
  cases x.notification? id with
  | none => rfl
  | some n => rfl

/-! ### The container -/

/-- The records there are once a call has come by its container. -/
def Call.begun (w : Workshop) : Call → Table NodeId TaskRecord
  | .init _ a => (w.begun a).2
  | _ => w.store.records

/-- The container of a call is cached, and only the record of an activated node may be new. -/
theorem Call.acquisition_ends (hw : w.Coherent) (c : Call) :
    c.acquisition.Ends w
      (fun _ w' => Calm w w' ∧ w'.Coherent ∧ w'.store.records = c.begun w)
      fun _ w' => Calm w w' := by
  have hresolve : ∀ id, (resolve id).Ends w
      (fun _ w' => Calm w w' ∧ w'.Coherent ∧ w'.store.records = w.store.records)
      fun _ w' => Calm w w' := fun id =>
    (resolve_ends hw id).mono (fun _ _ h => ⟨h.1.toCalm, h.1.coherent, h.1.records⟩)
      fun _ _ h => h.1.toCalm
  cases c with
  | init _ a =>
      exact (activate_ends hw a).mono (fun _ _ h => ⟨h.1, h.2.1, h.2.2.2⟩) fun _ _ h => h.1.toCalm
  | execute _ id _ => exact hresolve id
  | render _ id => exact hresolve id
  | snapshot id => exact hresolve id

theorem acquire_hit (ht : w.cache.Tidy) {id : NodeId} {k : Container}
    (hk : w.cache.entries.values.get? id = some k) (make : Act Workshop Container) :
    ∃ cache, (acquire id make).go w =
      (.ok k, { w with cache := cache, metrics := w.metrics.recordAccess true }) := by
  obtain ⟨cache, -, -, -, hgo⟩ := lookUp_go ht id
  have hlive : w.isLive id = true := Table.contains_iff.mpr ⟨k, hk⟩
  rw [hk, hlive] at hgo
  exact ⟨cache, go_bind_ok hgo _⟩

theorem Call.acquisition_hit (ht : w.cache.Tidy) (c : Call) {k : Container}
    (hk : w.cache.entries.values.get? c.node = some k) :
    ∃ cache, c.acquisition.go w =
      (.ok k, { w with cache := cache, metrics := w.metrics.recordAccess true }) := by
  cases c with
  | init _ a => exact acquire_hit ht hk _
  | execute _ id _ => exact acquire_hit ht hk _
  | render _ id => exact acquire_hit ht hk _
  | snapshot id => exact acquire_hit ht hk _

/-- A call that lets a plugin work stops where the plugin stops. -/
theorem Call.cancels_work {α β : Type} (hw : w.Coherent) (ht : w.cache.Tidy) (c : Call)
    {job job' : Container → Act Bench α} {next : Container → α → Act Workshop β}
    (hfork : ∀ k, Forks (job k) (job' k))
    (hagain : ∀ k j j', Respects (Bench.Elsewhere j j') (job k))
    (hnext : ∀ k x w, ((next k x).go w).2.agency = w.agency)
    (hnext' : ∀ k x j j', Respects (Elsewhere j j') (next k x)) :
    Cancels (c.begun w) (c.acquisition >>= fun k => work k (job k) >>= next k)
      (c.acquisition >>= fun k => work k (job' k) >>= next k) w := by
  have hends := (acquisition_ends hw c).and (acquisition_accounts hw ht c)
  rcases hgo : c.acquisition.go w with ⟨f | k, w₁⟩
  · obtain ⟨hcalm, -⟩ := (ends_iff.mp hends).2 f w₁ hgo
    have hfail : ∀ rest : Container → Act Workshop β,
        (c.acquisition >>= rest).go w = (.error f, w₁) := fun rest => by rw [go_bind, hgo]
    refine .inl ⟨by rw [hfail, hfail], ?_⟩
    rw [hfail, hcalm.agency]
  obtain ⟨⟨hcalm, hw₁, hrecords⟩, hcached, hacc⟩ := (ends_iff.mp hends).1 k w₁ hgo
  obtain ⟨r, hid, hr⟩ := hw₁.cached c.node k hcached
  have hnode : k.handle.nodeId = c.node := (congrArg Handle.nodeId hr.copied).trans hid
  have hrest : ∀ rest : Container → Act Workshop β,
      (c.acquisition >>= rest).go w = (rest k).go w₁ := fun rest => go_bind_ok hgo rest
  unfold Cancels
  rw [hrest, hrest, ← hcalm.agency]
  rcases work_forks (hfork k) (hnext k) (hnode ▸ hcached) with
    ⟨heq, hj⟩ | ⟨hj, url, call, hsent, heq⟩
  · exact .inl ⟨heq, hj⟩
  · refine .inr ⟨hj, url, _, heq, ⟨hrecords, ⟨call, hsent, ?_⟩, hcalm.mailbox, hcalm.metrics⟩, ?_⟩
    · rw [← hcalm.agency]
    -- the container is found again, as it was
    obtain ⟨cache, hhit⟩ := acquisition_hit (w := { w₁ with agency := w₁.agency.note call })
      hacc.tidy c hcached
    rw [go_bind_ok hhit]
    have helse : Elsewhere w₁.agency.journal (w₁.agency.note call).journal w₁
        { w₁ with
          agency := w₁.agency.note call
          cache := cache
          metrics := w₁.metrics.recordAccess true } := by
      refine ⟨rfl, rfl, ⟨[], (List.append_nil _).symm, ?_⟩, fun k hk => ?_⟩
      · rw [List.append_nil]
        rfl
      · exact w₁.metrics.count_record_ofCache rfl hk
    obtain ⟨hanswer, hleft⟩ :=
      ((work_elsewhere k (hagain k _ _)).bind fun x => hnext' k x _ _).go_eq helse
    exact ⟨hanswer.symm, hleft⟩

/-! ### Calls -/

/-- The call, with its context cancelled or not. -/
def Call.under (cancelled : Bool) : Call → Call
  | .init ctx a => .init (ctx.under cancelled) a
  | .execute ctx id q => .execute (ctx.under cancelled) id q
  | .render ctx id => .render (ctx.under cancelled) id
  | .snapshot id => .snapshot id

/-- The call has the same answer in `v` as in `w`, and leaves the same. -/
structure Call.SameIn (c : Call) (w v : Workshop) : Prop where
  answer : (c.perform v).1 = (c.perform w).1
  leaves : Elsewhere w.agency.journal v.agency.journal (c.perform w).2 (c.perform v).2

/-- A cancelled call is the fresh one if that calls nobody.  Otherwise it is answered as cancelled,
and can be made again. -/
def Call.Clean (c : Call) (w : Workshop) : Prop :=
  (((c.under false).perform w).2.agency.journal = w.agency.journal →
    (c.under true).perform w = (c.under false).perform w) ∧
  (((c.under false).perform w).2.agency.journal ≠ w.agency.journal →
    (∃ url, ((c.under true).perform w).1.failure? = some (.callCancelled url)) ∧
    Stopped (c.begun w) w ((c.under true).perform w).2 ∧
    (c.under false).SameIn w ((c.under true).perform w).2)

/-- A call is as clean as the action it comes to. -/
theorem Call.clean_of_cancels {α : Type} {c : Call} (fresh cancelled : Act Workshop α)
    {answer : Except Failure α → Answer} (hanswer : ∀ r, (answer r).failure? = failureOf r)
    (hfresh : ∀ w, (c.under false).perform w = (fresh.go w).map answer fun w => w)
    (hcancelled : ∀ w, (c.under true).perform w = (cancelled.go w).map answer fun w => w)
    (h : Cancels (c.begun w) fresh cancelled w) : c.Clean w := by
  refine ⟨fun hj => ?_, fun hj => ?_⟩
  · rw [hfresh] at hj
    rcases h with ⟨heq, -⟩ | ⟨hno, -⟩
    · rw [hcancelled, hfresh, heq]
    · exact absurd hj hno
  · rw [hfresh] at hj
    rcases h with ⟨-, hsame⟩ | ⟨-, url, w', heq, hstopped, hagain, hleaves⟩
    · exact absurd hsame hj
    · rw [hcancelled, heq]
      refine ⟨⟨url, hanswer _⟩, hstopped, ?_, ?_⟩
      · rw [hfresh, hfresh]
        exact congrArg answer hagain
      · rw [hfresh, hfresh]
        exact hleaves

/-- **Cancellation is clean.** -/
theorem Call.clean (hw : w.Coherent) (ht : w.cache.Tidy) (c : Call) : c.Clean w := by
  cases c with
  | init ctx a =>
      refine clean_of_cancels (Workshop.init (ctx.under false) a) (Workshop.init (ctx.under true) a)
        (fun _ => rfl) (fun _ => rfl) (fun _ => rfl) ?_
      by_cases hids : a.nodeId.text = "" ∨ a.instanceId.text = ""
      · have hempty : ∀ ctx, Workshop.init ctx a = throw .emptyIds := fun ctx => by
          rw [Workshop.init, if_pos hids]
          rfl
        rw [hempty, hempty]
        exact .inl ⟨rfl, rfl⟩
      · have hinit : ∀ ctx, Workshop.init ctx a = (acquire a.nodeId (create a) >>= fun k =>
            work k (Bench.startBy (k.plugin.start ctx)) >>= announce k.handle.nodeId) := fun ctx => by
          rw [Workshop.init, if_neg hids]
        rw [hinit, hinit]
        exact cancels_work hw ht (.init ctx a)
          (fun k => Bench.startBy_forks (k.plugin.start_forks ctx))
          (fun k _ _ => Bench.elsewhere_benchwork.startBy (Bench.elsewhere_benchwork.start _ _))
          (fun _ => announce_agency _) fun _ x _ _ => announce_elsewhere _ x
  | execute ctx id q =>
      refine clean_of_cancels (Workshop.execute (ctx.under false) id q)
        (Workshop.execute (ctx.under true) id q) (fun _ => rfl) (fun _ => rfl) (fun _ => rfl) ?_
      by_cases hq : Text.isBlankText q.action = true
      · have hblank : ∀ ctx, Workshop.execute ctx id q = throw .emptyAction := fun ctx => by
          rw [Workshop.execute, if_pos hq]
          rfl
        rw [hblank, hblank]
        exact .inl ⟨rfl, rfl⟩
      · have hexecute : ∀ ctx, Workshop.execute ctx id q = (resolve id >>= fun k =>
            work k (Bench.executeBy (k.plugin.execute ctx q)) >>= announce k.handle.nodeId) :=
          fun ctx => by rw [Workshop.execute, if_neg hq]
        rw [hexecute, hexecute]
        exact cancels_work hw ht (.execute ctx id q)
          (fun k => Bench.executeBy_forks (k.plugin.execute_forks ctx q))
          (fun k _ _ => Bench.elsewhere_benchwork.executeBy
            (Bench.elsewhere_benchwork.execute _ _ _))
          (fun _ => announce_agency _) fun _ x _ _ => announce_elsewhere _ x
  | render ctx id =>
      refine clean_of_cancels (Workshop.render (ctx.under false) id)
        (Workshop.render (ctx.under true) id) (fun _ => rfl) (fun _ => rfl) (fun _ => rfl) ?_
      -- nothing follows what is shown
      have hpure : ∀ ctx, Workshop.render ctx id =
          (resolve id >>= fun k => work k (k.plugin.render ctx) >>= pure) := fun ctx => by
        simp only [Workshop.render, bind_pure]
      rw [hpure, hpure]
      exact cancels_work hw ht (.render ctx id) (fun k => k.plugin.render_forks ctx)
        (fun k _ _ => k.plugin.render_elsewhere _) (fun _ _ _ => rfl) fun _ _ _ _ => .pure _
  | snapshot id =>
      refine ⟨fun _ => rfl, fun hj => absurd ?_ hj⟩
      have hagency : (Workshop.snapshot id).Ends w (fun _ w' => w'.agency = w.agency)
          fun _ w' => w'.agency = w.agency := by
        rw [Workshop.snapshot, ends_bind]
        exact (resolve_ends hw id).mono (fun _ _ h => h.1.agency) fun _ _ h => h.1.agency
      have hstate : ((Workshop.snapshot id).go w).2.agency = w.agency := ends_state.mp hagency
      exact congrArg Agency.journal hstate

end Workshop

end Clearance
