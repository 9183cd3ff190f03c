import Clearance.Proofs.Cache.Tidy
import Clearance.Proofs.Task.History

/-!
# Clearance — Proofs — Task — The accounts of the container cache

The counters of the cache against what was done with it.

* `Workshop.Accounts`: from one workshop to another, so many containers were looked up, and so many
  were built because they were not found.
* `Workshop.acquire_accounts`: acquiring a container looks it up once, and builds it if it is not
  found.
* `Workshop.Call.accounts`: a call does so once if it comes to that, and leaves the cache and its
  counters alone otherwise.
* `Workshop.Visits`: what is asked of a workshop one request after the other, each with the workshop
  that it finds.
* `Workshop.Visits.audited`: the counters against all of that.
-/

namespace Clearance

/-- Whether the counter is one of the workflow layer. -/
def MetricKind.ofWorkflows : MetricKind → Bool
  | .notificationProcessed | .notificationFailed | .nodeUnlocked | .unlockRegistrationFailed => true
  | _ => false

theorem MetricKind.ofCache_of_ofWorkflows {k : MetricKind} (h : k.ofWorkflows = true) :
    k.ofCache = false := by
  cases k with
  | cacheHit | cacheMiss | cacheEviction | pluginBuild => cases h
  | _ => rfl

namespace Workshop

variable {w w₁ w₂ w' : Workshop} {id : NodeId}

/-! ### Accounts -/

/-- From `w` to `w'`, containers were looked up and built so many times, and the cache has room for
those it holds. -/
structure Accounts (looked built : Nat) (w w' : Workshop) : Prop where
  tidy : w'.cache.Tidy
  capacity : w'.cache.entries.capacity = w.cache.entries.capacity
  looked : w'.metrics.count .cacheHit + w'.metrics.count .cacheMiss =
    w.metrics.count .cacheHit + w.metrics.count .cacheMiss + looked
  built : w'.liveCount + w'.metrics.count .cacheEviction =
    w.liveCount + w.metrics.count .cacheEviction + built
  /-- No more plugins were built than containers were missed. -/
  plugins : w'.metrics.count .pluginBuild + w.metrics.count .cacheMiss ≤
    w.metrics.count .pluginBuild + w'.metrics.count .cacheMiss

namespace Accounts

theorem refl (h : w.cache.Tidy) : Accounts 0 0 w w := ⟨h, rfl, rfl, rfl, Nat.le_refl _⟩

theorem trans {l l' b b' : Nat} (h : Accounts l b w w₁) (h' : Accounts l' b' w₁ w') :
    Accounts (l + l') (b + b') w w' where
  tidy := h'.tidy
  capacity := h'.capacity.trans h.capacity
  looked := by rw [h'.looked, h.looked, Nat.add_assoc]
  built := by rw [h'.built, h.built, Nat.add_assoc]
  plugins := by
    have := h.plugins
    have := h'.plugins
    omega

/-- What leaves the room of the cache and its counters as they are looks nothing up. -/
theorem of_eq (ht : w'.cache.Tidy) (hc : w'.cache.entries.capacity = w.cache.entries.capacity)
    (hs : w'.liveCount = w.liveCount)
    (hm : ∀ k, k.ofCache = true → w'.metrics.count k = w.metrics.count k) :
    Accounts 0 0 w w' where
  tidy := ht
  capacity := hc
  looked := by rw [hm .cacheHit rfl, hm .cacheMiss rfl, Nat.add_zero]
  built := by rw [hs, hm .cacheEviction rfl, Nat.add_zero]
  plugins := by rw [hm .pluginBuild rfl, hm .cacheMiss rfl]

/-- Nor does the count of anything that is not the cache's. -/
theorem record (h : w.cache.Tidy) {k : MetricKind} (hk : k.ofCache = false) :
    Accounts 0 0 w { w with metrics := w.metrics.record k } := by
  refine .of_eq h rfl rfl fun j hj => w.metrics.count_record_ne ?_
  rintro rfl
  exact Bool.false_ne_true (hk.symm.trans hj)

end Accounts

/-! ### Acquiring a container -/

theorem lookUp_go (h : w.cache.Tidy) (id : NodeId) :
    ∃ cache : ContainerCache Container, cache.Tidy ∧
      cache.entries.capacity = w.cache.entries.capacity ∧
      cache.entries.values = w.cache.entries.values ∧
      (lookUp id).go w = (.ok (w.cache.entries.values.get? id),
        { w with cache := cache, metrics := w.metrics.recordAccess (w.isLive id) }) := by
  obtain ⟨cache, ht, hc, hv, hf⟩ := ContainerCache.find_tidy h id
  refine ⟨cache, ht, hc, hv, ?_⟩
  rw [lookUp, Act.go_of, hf, show w.isLive id = (w.cache.entries.values.get? id).isSome from rfl]
  cases w.cache.entries.values.get? id with
  | none => rfl
  | some c => rfl

/-- The cache is left alone, and at most `n` plugins are built. -/
structure Makes (n : Nat) (w w' : Workshop) : Prop where
  cache : w'.cache = w.cache
  metrics : ∀ k, k.ofCache = true → k ≠ .pluginBuild → w'.metrics.count k = w.metrics.count k
  plugins : w'.metrics.count .pluginBuild ≤ w.metrics.count .pluginBuild + n

theorem Makes.trans {m n : Nat} (h : Makes m w w₁) (h' : Makes n w₁ w') : Makes (m + n) w w' where
  cache := h'.cache.trans h.cache
  metrics k hk hne := (h'.metrics k hk hne).trans (h.metrics k hk hne)
  plugins := by
    have := h.plugins
    have := h'.plugins
    omega

/-- A look-up that missed is made up for by the container that is made then, if one is. -/
theorem Makes.missed {cache : ContainerCache Container} (ht : cache.Tidy)
    (hc : cache.entries.capacity = w.cache.entries.capacity)
    (hv : cache.entries.values = w.cache.entries.values)
    (h : Makes 1 { w with cache := cache, metrics := w.metrics.recordAccess false } w') :
    Accounts 1 0 w w' where
  tidy := h.cache ▸ ht
  capacity := h.cache ▸ hc
  looked := by
    rw [h.metrics .cacheHit rfl nofun, h.metrics .cacheMiss rfl nofun]
    rfl
  built := by
    have hsize : w'.liveCount = w.liveCount := by
      rw [liveCount, h.cache]
      exact congrArg Table.size hv
    rw [hsize, h.metrics .cacheEviction rfl nofun]
    rfl
  plugins := by
    have hmiss : w'.metrics.count .cacheMiss = w.metrics.count .cacheMiss + 1 :=
      h.metrics .cacheMiss rfl nofun
    have hbuilds : w'.metrics.count .pluginBuild ≤ w.metrics.count .pluginBuild + 1 := h.plugins
    omega

/-- A container that is cached takes its place, and another one may have to go. -/
theorem cacheNew_accounts (h : w.cache.Tidy) {c : Container} (hid : c.handle.nodeId = id)
    (hno : w.cache.entries.values.get? id = none) :
    (cacheNew c).Ends w
      (fun _ w' => w'.cache.entries.values.get? id = some c ∧ Accounts 0 1 w w')
      fun _ _ => False := by
  subst hid
  obtain ⟨ht, hc, hget, hsize⟩ := ContainerCache.insert_tidy h hno (fun _ => false) c
  rw [cacheNew, Act.ends_of]
  revert ht hc hget hsize
  rcases w.cache.insert (fun _ => false) c.handle.nodeId c with ⟨_ | _, cache⟩
  · intro ht hc hget hsize
    refine ⟨hget, ht, hc, rfl, ?_, Nat.le_refl _⟩
    have hsame : cache.size = w.cache.size + 1 := hsize
    rw [liveCount, hsame]
    exact Nat.add_right_comm _ _ _
  · intro ht hc hget hsize
    refine ⟨hget, ht, hc, rfl, ?_, Nat.le_refl _⟩
    have hsame : cache.size = w.cache.size := Nat.succ.inj hsize
    rw [liveCount, hsame]
    rfl

/-- The container of a node is looked up once, and cached if it had to be made. -/
theorem acquire_accounts (hw : w.Coherent) (h : w.cache.Tidy) {make : Act Workshop Container}
    (hmake : ∀ w₁, Kept w w₁ → make.Ends w₁
      (fun c w₂ => c.handle.nodeId = id ∧ Makes 1 w₁ w₂) fun _ w₂ => Makes 1 w₁ w₂) :
    (acquire id make).Ends w
      (fun c w' => w'.cache.entries.values.get? id = some c ∧
        Accounts 1 (if w.isLive id then 0 else 1) w w')
      fun _ w' => w.isLive id = false ∧ Accounts 1 0 w w' := by
  obtain ⟨cache, ht, hc, hv, hgo⟩ := lookUp_go h id
  have hkept := (Act.ends_iff.mp (lookUp_ends hw id)).1 _ _ hgo
  rw [acquire, Act.Ends, Act.go_bind_ok hgo]
  cases hget : w.cache.entries.values.get? id with
  | some c =>
      have hlive : w.isLive id = true := Table.contains_iff.mpr ⟨c, hget⟩
      rw [hlive, if_pos rfl]
      refine ⟨hv ▸ hget, ht, hc, Nat.add_right_comm _ _ _, ?_, Nat.le_refl _⟩
      exact congrArg (Table.size · + w.metrics.count .cacheEviction) hv
  | none =>
      have hlive : w.isLive id = false := Table.contains_eq_false.mpr hget
      rw [hlive] at hkept ⊢
      rw [if_neg Bool.false_ne_true]
      refine (Act.ends_bind _ _).mpr ((hmake _ hkept.1).mono (fun c w₂ k => ?_) fun _ w₂ k => ?_)
      · obtain ⟨hid, hmakes⟩ := k
        have hno : w₂.cache.entries.values.get? id = none := by rw [hmakes.cache, hv, hget]
        have hmissed := hmakes.missed ht hc hv
        refine (Act.ends_bind _ _).mpr ((cacheNew_accounts hmissed.tidy hid hno).mono
          (fun _ w₃ k => ?_) fun _ _ k => k.elim)
        exact ⟨k.1, hmissed.trans k.2⟩
      · exact ⟨rfl, k.missed ht hc hv⟩

/-! ### Making a container -/

theorem onStore_makes {α : Type} (a : Act TaskStore α) (w : Workshop) :
    (onStore a).Ends w (fun _ w' => Makes 0 w w') fun _ w' => Makes 0 w w' := by
  rw [onStore, Act.ends_on]
  exact Act.ends_iff.mpr ⟨fun _ _ _ => ⟨rfl, fun _ _ _ => rfl, Nat.le_refl _⟩,
    fun _ _ _ => ⟨rfl, fun _ _ _ => rfl, Nat.le_refl _⟩⟩

theorem buildPlugin_makes (kind : TaskKind) (config : Json) (w : Workshop) :
    (buildPlugin kind config).Ends w (fun _ w' => Makes 1 w w') fun _ w' => Makes 1 w w' := by
  exact Act.ends_state.mpr ⟨rfl, fun k _ hne => w.metrics.count_record_ne hne, Nat.le_refl _⟩

theorem rebuild_makes (r : TaskRecord) (w : Workshop) :
    (rebuild r).Ends w (fun c w' => c.handle.nodeId = r.id ∧ Makes 1 w w')
      fun _ w' => Makes 1 w w' := by
  rw [rebuild, Act.ends_bind]
  exact (buildPlugin_makes r.kind r.config w).mono (fun _ _ h => ⟨rfl, h⟩) fun _ _ h => h

theorem createNew_makes (a : Activation) (w : Workshop) :
    (createNew a).Ends w (fun c w' => c.handle.nodeId = a.nodeId ∧ Makes 1 w w')
      fun _ w' => Makes 1 w w' := by
  rw [createNew, Act.ends_bind]
  refine (buildPlugin_makes a.kind a.config w).mono (fun p w₁ h => ?_) fun _ _ h => h
  rw [Act.ends_bind]
  exact (onStore_makes _ w₁).mono (fun _ _ k => ⟨rfl, h.trans k⟩) fun _ _ k => h.trans k

/-- A container that is made of what the store has of a node is of that node. -/
theorem getRecord_makes (hw : w.Coherent) (id : NodeId)
    {next : Option TaskRecord → Act Workshop Container}
    (hnext : ∀ r? w₁, (∀ r, r? = some r → r.id = id) → (next r?).Ends w₁
      (fun c w₂ => c.handle.nodeId = id ∧ Makes 1 w₁ w₂) fun _ w₂ => Makes 1 w₁ w₂) :
    (onStore (TaskStore.get id) >>= next).Ends w
      (fun c w' => c.handle.nodeId = id ∧ Makes 1 w w') fun _ w' => Makes 1 w w' := by
  rw [Act.ends_bind]
  refine ((getRecord_ends hw id).and (onStore_makes _ w)).mono (fun r? w₁ h => ?_)
    fun _ _ h => ⟨h.2.cache, h.2.metrics, h.2.plugins.trans (Nat.le_succ _)⟩
  obtain ⟨⟨-, rfl⟩, hget⟩ := h
  refine (hnext _ w₁ fun r hr => hw.keyed id r hr).mono (fun c w₂ k => ⟨k.1, ?_⟩) fun _ w₂ k => ?_
  · exact Nat.zero_add 1 ▸ hget.trans k.2
  · exact Nat.zero_add 1 ▸ hget.trans k

theorem create_makes (hw : w.Coherent) (a : Activation) :
    (create a).Ends w (fun c w' => c.handle.nodeId = a.nodeId ∧ Makes 1 w w')
      fun _ w' => Makes 1 w w' := by
  refine getRecord_makes hw a.nodeId fun r? w₁ hr => ?_
  cases r? with
  | none => exact createNew_makes a w₁
  | some r => exact hr r rfl ▸ rebuild_makes r w₁

/-! ### Calls -/

/-- Whether a call comes to look up a container. -/
def Call.seeks : Call → Bool
  | .init _ a => a.nodeId.text ≠ "" ∧ a.instanceId.text ≠ ""
  | .execute _ _ q => !Text.isBlankText q.action
  | .render _ _ | .snapshot _ => true

/-- How a call comes by the container of its node. -/
def Call.acquisition : Call → Act Workshop Container
  | .init _ a => acquire a.nodeId (create a)
  | .execute _ id _ | .render _ id | .snapshot id => resolve id

/-- Whether a call looks up a container that is not there and then builds it. -/
def Call.builds (w : Workshop) (c : Call) : Bool :=
  c.seeks && !w.isLive c.node && (c.acquisition.go w).1.isOk

/-- The container of the node is looked up once, and built if it is not there. -/
theorem Call.acquisition_accounts (hw : w.Coherent) (h : w.cache.Tidy) (c : Call) :
    c.acquisition.Ends w
      (fun k w' => w'.cache.entries.values.get? c.node = some k ∧
        Accounts 1 (if w.isLive c.node then 0 else 1) w w')
      fun _ w' => w.isLive c.node = false ∧ Accounts 1 0 w w' := by
  have hresolve : ∀ id, (resolve id).Ends w
      (fun k w' => w'.cache.entries.values.get? id = some k ∧
        Accounts 1 (if w.isLive id then 0 else 1) w w')
      fun _ w' => w.isLive id = false ∧ Accounts 1 0 w w' := by
    intro id
    refine acquire_accounts hw h fun w₁ h₁ => ?_
    refine getRecord_makes h₁.coherent id fun r? w₂ hr => ?_
    cases r? with
    | none => exact ⟨rfl, fun _ _ _ => rfl, Nat.le_succ _⟩
    | some r => exact hr r rfl ▸ rebuild_makes r w₂
  cases c with
  | init _ a => exact acquire_accounts hw h fun w₁ h₁ => create_makes h₁.coherent a
  | execute _ id _ => exact hresolve id
  | render _ id => exact hresolve id
  | snapshot id => exact hresolve id

/-- Nothing is counted that the workflow layer counts. -/
def Uncounted (w w' : Workshop) : Prop :=
  ∀ k, k.ofWorkflows = true → w'.metrics.count k = w.metrics.count k

theorem Uncounted.trans (h : Uncounted w w₁) (h' : Uncounted w₁ w') : Uncounted w w' :=
  fun k hk => (h' k hk).trans (h k hk)

theorem Calm.uncounted (h : Calm w w') : Uncounted w w' :=
  fun k hk => h.metrics k (MetricKind.ofCache_of_ofWorkflows hk)

theorem Call.acquisition_uncounted (hw : w.Coherent) (c : Call) :
    c.acquisition.Ends w (fun _ w' => Uncounted w w') fun _ w' => Uncounted w w' := by
  have hresolve : ∀ id, (resolve id).Ends w (fun _ w' => Uncounted w w')
      fun _ w' => Uncounted w w' := fun id =>
    (resolve_ends hw id).mono (fun _ _ h => h.1.uncounted) fun _ _ h => h.1.uncounted
  cases c with
  | init _ a =>
      exact (activate_ends hw a).mono (fun _ _ h => h.1.uncounted) fun _ _ h => h.1.uncounted
  | execute _ id _ => exact hresolve id
  | render _ id => exact hresolve id
  | snapshot id => exact hresolve id

/-- The action looks up no container, and counts nothing that the workflow layer counts. -/
def Seekless {α : Type} (a : Act Workshop α) : Prop :=
  ∀ w, w.cache.Tidy → Accounts 0 0 w (a.go w).2 ∧ Uncounted w (a.go w).2

theorem seekless_closed : Act.Closed @Seekless where
  pure _ _ h := ⟨.refl h, fun _ _ => rfl⟩
  throw _ _ h := ⟨.refl h, fun _ _ => rfl⟩
  bind := by
    intro α β a f ha hf w h
    have h₁ := ha w h
    rw [Act.go_bind]
    revert h₁
    rcases a.go w with ⟨_ | x, w₁⟩
    · exact fun h₁ => h₁
    · intro h₁
      have h₂ := hf x w₁ h₁.1.tidy
      exact ⟨h₁.1.trans h₂.1, h₁.2.trans h₂.2⟩
  attempt ha w h := ha w h

theorem seekless_work {α : Type} (c : Container) (job : Act Bench α) : Seekless (work c job) := by
  intro w h
  rw [work, Act.go_of]
  rcases job.go (c.bench w.store w.agency) with ⟨r, b⟩
  obtain ⟨ht, hc, hs, -⟩ := ContainerCache.keep_tidy h c.handle.nodeId (c.after b)
  exact ⟨.of_eq ht hc hs fun _ _ => rfl, fun _ _ => rfl⟩

theorem seekless_announce (id : NodeId) (x : Response) : Seekless (announce id x) := by
  unfold announce
  cases x.notification? id with
  | none => exact seekless_closed.pure x
  | some n =>
      refine seekless_closed.bind (fun w h => ?_) fun _ => seekless_closed.pure x
      rw [send, Act.go_of]
      have hcount : ∀ sent k, k.ofCache = true ∨ k.ofWorkflows = true →
          (w.metrics.record (if sent = true then .notificationSent
            else .notificationDropped)).count k = w.metrics.count k := by
        refine fun sent k hk => w.metrics.count_record_ne ?_
        rintro rfl
        cases sent <;> rcases hk with hk | hk <;> cases hk
      exact ⟨.of_eq h rfl rfl fun k hk => hcount _ k (.inl hk), fun k hk => hcount _ k (.inr hk)⟩

/-- A call that seeks a container only works with it then. -/
theorem Call.perform_of_seeks {c : Call} (hc : c.seeks = true) :
    ∃ (α : Type) (rest : Container → Act Workshop α), (∀ k, Seekless (rest k)) ∧
      ∀ w, (c.perform w).2 = ((c.acquisition >>= rest).go w).2 := by
  cases c with
  | init ctx a =>
      refine ⟨_, fun k => work k (Bench.startBy (k.plugin.start ctx)) >>= announce k.handle.nodeId,
        fun k => seekless_closed.bind (seekless_work _ _) (seekless_announce _), fun w => ?_⟩
      have hids : ¬ (a.nodeId.text = "" ∨ a.instanceId.text = "") := by
        simpa [seeks] using hc
      rw [perform, Workshop.init, if_neg hids]
      rfl
  | execute ctx id q =>
      refine ⟨_, fun k => work k (Bench.executeBy (k.plugin.execute ctx q)) >>=
        announce k.handle.nodeId,
        fun k => seekless_closed.bind (seekless_work _ _) (seekless_announce _), fun w => ?_⟩
      have hq : ¬ Text.isBlankText q.action = true := by
        simpa [seeks] using hc
      rw [perform, Workshop.execute, if_neg hq]
      rfl
  | render ctx id =>
      exact ⟨_, fun k => work k (k.plugin.render ctx), fun k => seekless_work _ _, fun _ => rfl⟩
  | snapshot id => exact ⟨_, fun k => pure k.handle, fun k => seekless_closed.pure _, fun _ => rfl⟩

/-- A call that seeks no container does nothing. -/
theorem Call.perform_of_not_seeks {c : Call} (hc : c.seeks = false) (w : Workshop) :
    (c.perform w).2 = w := by
  cases c with
  | init ctx a =>
      have hids : a.nodeId.text = "" ∨ a.instanceId.text = "" := by
        by_contra hno
        simp [seeks, not_or.mp hno] at hc
      rw [perform, Workshop.init, if_pos hids]
      rfl
  | execute ctx id q =>
      have hq : Text.isBlankText q.action = true := by
        simpa [seeks] using hc
      rw [perform, Workshop.execute, if_pos hq]
      rfl
  | render _ _ => cases hc
  | snapshot _ => cases hc

/-- **One call.** The counters tell whether it looked up a container, and whether it built one. -/
theorem Call.accounts (hw : w.Coherent) (h : w.cache.Tidy) (c : Call) :
    Accounts c.seeks.toNat (c.builds w).toNat w (c.perform w).2 ∧ Uncounted w (c.perform w).2 := by
  cases hc : c.seeks with
  | false =>
      rw [builds, hc, perform_of_not_seeks hc]
      exact ⟨.refl h, fun _ _ => rfl⟩
  | true =>
      obtain ⟨α, rest, hrest, hperform⟩ := perform_of_seeks hc
      have hends := (acquisition_accounts hw h c).and (acquisition_uncounted hw c)
      rw [builds, hc, hperform, Act.go_bind]
      revert hends
      unfold Act.Ends
      rcases c.acquisition.go w with ⟨_ | k, w₁⟩
      · rintro ⟨⟨hlive, hacc⟩, hno⟩
        rw [hlive]
        exact ⟨hacc, hno⟩
      · rintro ⟨⟨-, hacc⟩, hno⟩
        obtain ⟨hthen, hno'⟩ := hrest k w₁ hacc.tidy
        refine ⟨?_, hno.trans hno'⟩
        have hall := hacc.trans hthen
        cases hlive : w.isLive c.node
        · rw [hlive] at hall
          exact hall
        · rw [hlive] at hall
          exact hall

/-! ### One request after the other -/

/-- What is asked of the task layer. -/
inductive Request where
  | call (c : Call)
  /-- A node was unlocked and is to be activated.  If that fails it is counted. -/
  | registration (a : Activation)

namespace Request

/-- The call that a request comes to. -/
def made : Request → Call
  | call c => c
  | registration a => .init {} a

/-- The workshop that a request leaves. -/
def leaves (w : Workshop) : Request → Workshop
  | call c => (c.perform w).2
  | registration a => w.register a

/-- The node that a request registers. -/
def registered : Request → Option NodeId
  | call _ => none
  | registration a => some a.nodeId

end Request

/-- A request with the workshop it finds. -/
structure Visit where
  workshop : Workshop
  request : Request

namespace Visit

/-- Whether it looks up a container. -/
def seeks (v : Visit) : Bool := v.request.made.seeks

/-- Whether it builds the container that it looks up. -/
def builds (v : Visit) : Bool := v.request.made.builds v.workshop

/-- Whether it is a registration that fails. -/
def fails (v : Visit) : Bool :=
  match v.request with
  | .call _ => false
  | .registration a => !((Workshop.init {} a).go v.workshop).1.isOk

end Visit

/-- `w'` is left by these requests, one after the other, while notifications are counted as
processed or as failed. -/
inductive Visits (w : Workshop) : List Visit → Workshop → Prop
  | nil : Visits w [] w
  | visit {vs : List Visit} {w₁ : Workshop} (h : Visits w vs w₁) (q : Request) :
      Visits w (vs ++ [⟨w₁, q⟩]) (q.leaves w₁)
  | count {vs : List Visit} {w₁ : Workshop} {k : MetricKind} (h : Visits w vs w₁)
      (hk : k = .notificationProcessed ∨ k = .notificationFailed) :
      Visits w vs { w₁ with metrics := w₁.metrics.record k }

namespace Visits

variable {vs : List Visit}

/-- However many of them fail, all unlocked nodes are registered. -/
theorem registers (h : Visits w vs w₁) (bs : List Activation) :
    ∃ more : List Visit, more.map (·.request) = bs.map .registration ∧
      Visits w (vs ++ more) (bs.foldl register w₁) := by
  induction bs generalizing vs w₁ with
  | nil => exact ⟨[], rfl, by rwa [List.append_nil]⟩
  | cons a rest ih =>
      obtain ⟨more, hmore, hall⟩ := ih (h.visit (.registration a))
      refine ⟨⟨w₁, .registration a⟩ :: more, by rw [List.map_cons, hmore]; rfl, ?_⟩
      rw [List.append_cons]
      exact hall

/-- The starting tasks of an instance are activated up to the first that fails. -/
theorem initAll (h : Visits w vs w₁) (bs : List Activation) :
    ∃ more : List Visit,
      more.map (·.request) = (w₁.attempted bs).map (fun a => .call (.init {} a)) ∧
      Visits w (vs ++ more) ((Workshop.initAll bs).go w₁).2 := by
  induction bs generalizing vs w₁ with
  | nil => exact ⟨[], rfl, by rwa [List.append_nil]⟩
  | cons a rest ih =>
      have ha := h.visit (.call (.init {} a))
      have hleaves : (Request.call (.init {} a)).leaves w₁ = ((Workshop.init {} a).go w₁).2 := rfl
      rw [hleaves] at ha
      rw [Workshop.initAll, Act.go_bind, attempted]
      rcases hgo : (Workshop.init {} a).go w₁ with ⟨_ | _, w₂⟩
      · rw [hgo] at ha
        exact ⟨_, rfl, ha⟩
      · rw [hgo] at ha
        obtain ⟨more, hmore, hall⟩ := ih ha
        refine ⟨⟨w₁, .call (.init {} a)⟩ :: more, by rw [List.map_cons, hmore]; rfl, ?_⟩
        rw [List.append_cons]
        exact hall

end Visits

/-- What becomes of the counters by these requests. -/
structure Audited (vs : List Visit) (w w' : Workshop) : Prop
    extends Accounts (vs.countP (·.seeks)) (vs.countP (·.builds)) w w' where
  coherent : w'.Coherent
  unlocked : w'.metrics.count .nodeUnlocked = w.metrics.count .nodeUnlocked
  failed : w'.metrics.count .unlockRegistrationFailed =
    w.metrics.count .unlockRegistrationFailed + vs.countP (·.fails)

theorem Audited.refl (hw : w.Coherent) (h : w.cache.Tidy) : Audited [] w w :=
  ⟨.refl h, hw, rfl, rfl⟩

theorem Audited.trans {vs vs' : List Visit} (h : Audited vs w w₁) (h' : Audited vs' w₁ w') :
    Audited (vs ++ vs') w w' where
  toAccounts := by
    rw [List.countP_append, List.countP_append]
    exact h.toAccounts.trans h'.toAccounts
  coherent := h'.coherent
  unlocked := h'.unlocked.trans h.unlocked
  failed := by rw [h'.failed, h.failed, List.countP_append, Nat.add_assoc]

/-- A counter of the workflow layer is none of the cache's. -/
theorem audited_record (hw : w.Coherent) (h : w.cache.Tidy) {k : MetricKind}
    (hk : k = .notificationProcessed ∨ k = .notificationFailed) :
    Audited [] w { w with metrics := w.metrics.record k } := by
  refine ⟨.record h ?_, hw.of_eq rfl rfl (fun _ _ h => h) fun _ h => h,
    w.metrics.count_record_ne ?_, w.metrics.count_record_ne ?_⟩ <;>
  · rcases hk with rfl | rfl
    · decide
    · decide

theorem audited_request (hw : w.Coherent) (h : w.cache.Tidy) (q : Request) :
    Audited [⟨w, q⟩] w (q.leaves w) := by
  have hcall := q.made.accounts hw h
  have hcoherent := (q.made.serves hw).coherent
  have hone : ∀ p : Visit → Bool, [(⟨w, q⟩ : Visit)].countP p = (p ⟨w, q⟩).toNat := by
    intro p
    rw [List.countP_singleton]
    cases p ⟨w, q⟩ <;> rfl
  cases q with
  | call c =>
      refine ⟨?_, hcoherent, hcall.2 _ rfl, hcall.2 _ rfl⟩
      rw [hone, hone]
      exact hcall.1
  | registration a =>
      rw [Request.leaves, register]
      rcases hgo : (Workshop.init {} a).go w with ⟨f | x, w₁⟩
      · have hsnd : ((Request.registration a).made.perform w).2 = w₁ := congrArg Prod.snd hgo
        have hfails : Visit.fails ⟨w, .registration a⟩ = true :=
          congrArg (fun r : Except Failure Response × Workshop => !r.1.isOk) hgo
        rw [hsnd] at hcall hcoherent
        refine ⟨?_, hcoherent.of_eq rfl rfl (fun _ _ h => h) fun _ h => h, ?_, ?_⟩
        · rw [hone, hone]
          exact hcall.1.trans (.record hcall.1.tidy rfl)
        · exact (w₁.metrics.count_record_ne (by decide)).trans (hcall.2 .nodeUnlocked rfl)
        · rw [hone, hfails, Metrics.count_record, if_pos rfl, hcall.2 _ rfl]
          rfl
      · have hsnd : ((Request.registration a).made.perform w).2 = w₁ := congrArg Prod.snd hgo
        have hfails : Visit.fails ⟨w, .registration a⟩ = false :=
          congrArg (fun r : Except Failure Response × Workshop => !r.1.isOk) hgo
        rw [hsnd] at hcall hcoherent
        refine ⟨?_, hcoherent, hcall.2 _ rfl, ?_⟩
        · rw [hone, hone]
          exact hcall.1
        · rw [hone, hfails]
          exact hcall.2 _ rfl

theorem Visits.audited {vs : List Visit} (h : Visits w vs w') (hw : w.Coherent)
    (ht : w.cache.Tidy) : Audited vs w w' := by
  induction h with
  | nil => exact .refl hw ht
  | visit _ q ih => exact ih.trans (audited_request ih.coherent ih.tidy q)
  | @count vs _ _ _ hk ih =>
      have hall := ih.trans (audited_record ih.coherent ih.tidy hk)
      rwa [List.append_nil] at hall

end Workshop

end Clearance
