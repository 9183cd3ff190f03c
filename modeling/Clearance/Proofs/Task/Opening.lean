import Clearance.Proofs.Task.Announced

/-!
# Clearance — Proofs — Task — New tasks are opened

* `Plugin.start_opens`: the start of a task that has not been started asks that it be in progress.
* `Workshop.lifecycle_init`: so a node without a record is in progress once its activation succeeds.
* `Workshop.initAll_opens`: and so is each of many, activated one after the other.
* `Workshop.Served.queue`: whatever is done to some tasks, the notifications that are queued stay,
  and those behind them are of these tasks.
-/

namespace Clearance

/-- What asks for a move is where the lifecycle goes. -/
theorem Lifecycle.GoesOn.eq_of_some {l m n : Lifecycle} (h : l.GoesOn (some m) n) : n = m := by
  cases h with
  | moves _ => rfl

/-! ### The start of a task -/

/-- The response asks that the task be in progress. -/
def Response.Opens (x : Response) : Prop := x.newState = some .inProgress

/-- Unless it fails, the logic answers a response that opens the task. -/
def Bench.Opens (logic : Act Bench Response) (b : Bench) : Prop :=
  logic.Ends b (fun x _ => x.Opens) fun _ _ => True

section Start

variable {b : Bench}

theorem FormConfig.start_opens (h : b.handle.state = .initialized) : Bench.Opens start b := by
  rw [Bench.Opens, start, Bench.handleNow, Act.ends_bind, Act.ends_of]
  dsimp only
  rw [if_pos h]
  rfl

theorem EventConfig.start_opens (h : b.handle.state = .initialized) (c : EventConfig)
    (ctx : CallContext) : Bench.Opens (c.start ctx) b := by
  rw [Bench.Opens, start, Bench.handleNow, Act.ends_bind, Act.ends_of]
  dsimp only
  rw [if_neg (not_not.mpr h)]
  split
  · -- whether the service is told decides nothing about the response
    exact Act.ends_bind_of_forall fun _ _ => Act.ends_bind_of_forall fun _ _ => rfl
  · rfl

theorem Plugin.start_opens (h : b.handle.state = .initialized) (p : Plugin) (ctx : CallContext) :
    Bench.Opens (p.start ctx) b := by
  cases p with
  | form _ => exact FormConfig.start_opens h
  | event c => exact EventConfig.start_opens h c ctx

theorem Bench.settle_opens {x : Response} (h : x.Opens) (b : Bench) : Opens (settle x) b := by
  rw [Opens, settle, show x.newState = some .inProgress from h]
  exact Act.ends_bind_of_forall fun _ _ => h

theorem Bench.startBy_opens (h : b.handle.state = .initialized) {logic : Act Bench Response}
    (hl : Opens logic b) : Opens (startBy logic) b := by
  rw [Opens, startBy, handleNow, Act.ends_bind, Act.ends_of]
  dsimp only
  rw [h, if_neg (by decide), Act.ends_bind]
  exact Act.Ends.mono hl (fun _ b₁ hx => settle_opens hx b₁) fun _ _ _ => trivial

end Start

namespace Workshop

variable {w w' : Workshop}

/-! ### What operations leave as it was -/

section Around

variable {k id : NodeId} {P : NodeId → Prop}

theorem Serves.queue (h : Serves k w w') :
    ∃ sent, w'.mailbox.queue = w.mailbox.queue ++ sent ∧
      ∀ n ∈ sent, n.nodeId = k ∧ ∃ l : Lifecycle, n.lifecycle = some l.text := by
  rcases h.outcome with hstill | ⟨note, l, x, hm⟩
  · refine ⟨[], ?_, List.forall_mem_nil _⟩
    rw [hstill.mailbox, List.append_nil]
  · rw [hm.mailbox, Mailbox.send]
    split
    · refine ⟨[note], rfl, fun n hn => ?_⟩
      obtain rfl := List.mem_singleton.mp hn
      exact ⟨hm.node, l, hm.lifecycle⟩
    · exact ⟨[], (List.append_nil _).symm, List.forall_mem_nil _⟩

theorem Served.queue (h : Served P w w') :
    ∃ sent, w'.mailbox.queue = w.mailbox.queue ++ sent ∧
      ∀ n ∈ sent, P n.nodeId ∧ ∃ l : Lifecycle, n.lifecycle = some l.text := by
  induction h with
  | refl => exact ⟨[], (List.append_nil _).symm, List.forall_mem_nil _⟩
  | serve _ hid hs ih =>
      obtain ⟨sent, hq, hsent⟩ := ih
      obtain ⟨last, hlast, hof⟩ := hs.queue
      refine ⟨sent ++ last, by rw [hlast, hq, List.append_assoc], ?_⟩
      refine List.forall_mem_append.mpr ⟨hsent, fun n hn => ?_⟩
      obtain ⟨hnode, hl⟩ := hof n hn
      exact ⟨hnode ▸ hid, hl⟩
  | count _ _ ih => exact ih

/-- The records of all other nodes stay. -/
theorem Served.elsewhere (h : Served P w w') (hid : ¬ P id) :
    w'.store.records.get? id = w.store.records.get? id := by
  induction h with
  | refl => rfl
  | serve _ hk hs ih =>
      refine (hs.elsewhere id ?_).trans ih
      rintro rfl
      exact hid hk
  | count _ _ ih => exact ih

end Around

/-! ### Activations of new nodes -/

/-- The activation of a node without a record opens its task, unless it fails. -/
theorem init_opens (hw : w.Coherent) (ctx : CallContext) {a : Activation}
    (hno : w.store.records.get? a.nodeId = none) :
    (init ctx a).Ends w (fun x _ => x.Opens) fun _ _ => True := by
  simp only [init, Act.ends_bind, Act.ends_ite, Act.ends_throw]
  split
  · trivial
  · refine (activate_ends hw a).mono (fun c w₁ h => ?_) fun _ _ _ => trivial
    obtain ⟨-, -, hc, -⟩ := h
    rw [begun_of_none hno] at hc
    have hs : c.handle.state = .initialized := congrArg Handle.state hc.copied
    rw [ends_work]
    refine Act.Ends.mono (Bench.startBy_opens hs (Plugin.start_opens hs c.plugin ctx))
      (fun x b hx => ?_) fun _ _ _ => trivial
    rw [announce, x.notification?_of_some hx]
    exact hx

theorem lifecycle_init (hw : w.Coherent) {ctx : CallContext} {a : Activation}
    (hno : w.store.records.get? a.nodeId = none) {x : Response}
    (h : (init ctx a).go w = (.ok x, w')) : w'.lifecycle a.nodeId = .inProgress := by
  have hopens : x.newState = some .inProgress := (Act.ends_iff.mp (init_opens hw ctx hno)).1 x w' h
  have hcourse := (init_reports hw ctx a).course
  rw [h, Response.moveOf, hopens] at hcourse
  exact hcourse.eq_of_some

/-- Of nodes without a record that are activated one after the other, all are in progress if none
of the activations failed. -/
theorem initAll_opens (hw : w.Coherent) {as : List Activation}
    (hd : (as.map (·.nodeId)).Nodup) (hnew : ∀ a ∈ as, w.store.records.get? a.nodeId = none)
    (h : (initAll as).go w = (.ok (), w')) {a : Activation} (ha : a ∈ as) :
    w'.lifecycle a.nodeId = .inProgress := by
  induction as generalizing w with
  | nil => cases ha
  | cons b rest ih =>
      obtain ⟨hb, hrest⟩ := List.nodup_cons.mp hd
      obtain ⟨hnewb, hnewrest⟩ := List.forall_mem_cons.mp hnew
      have hserves := init_serves hw {} b
      rw [initAll, Act.go_bind] at h
      rcases hgo : (init {} b).go w with ⟨_ | x, w₁⟩
      · rw [hgo] at h
        cases h
      rw [hgo] at h hserves
      rcases List.mem_cons.mp ha with rfl | ha
      · -- the activations that follow are of other nodes
        have hothers := (Inits.of_initAll h).served (P := (· ∈ rest.map (·.nodeId)))
          hserves.coherent fun c hc =>
            List.mem_map_of_mem ((attempted_initial w₁ rest).subset hc)
        rw [lifecycle_congr (hothers.elsewhere hb)]
        exact lifecycle_init hw hnewb hgo
      · refine ih hserves.coherent hrest (fun c hc => ?_) h ha
        refine (hserves.elsewhere c.nodeId ?_).trans (hnewrest c hc)
        intro hid
        exact hb (List.mem_map.mpr ⟨c, hc, hid⟩)

end Workshop

end Clearance
