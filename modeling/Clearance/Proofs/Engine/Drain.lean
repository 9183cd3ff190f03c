import Clearance.Proofs.Engine.Conservation
import Clearance.Proofs.Engine.Inception

/-!
# Clearance — Proofs — Engine — The drain ends

A notification that is processed may unlock nodes, and each node that is unlocked sends at most one
notification when it starts.  But it was locked before, and it will not be again.

* `WorkflowStore.Sound.locked_settle`: the nodes that are unlocked are no longer among the locked ones.
* `Engine.deliver_backlog`: so each turn of the consumer leaves less to be done.
* `Engine.drain_enough`, `Engine.length_drain_le`: as many turns as there are queued notifications and
  locked nodes are enough.
* `Engine.drain_mails`: what they process is what was queued, and behind it what was accepted meanwhile.
* `Engine.shutdown_drains`: so it is for a consumer that is stopped after any run.
-/

namespace Clearance

namespace WorkflowStore

/-! ### Locked nodes -/

def lockedIds (s : WorkflowStore) : List NodeId :=
  (s.nodes.entries.filter (·.2.state == .locked)).map (·.1)

variable {s : WorkflowStore} {n m : WorkflowNode} {x : WorkflowInstance}

theorem mem_lockedIds {id : NodeId} :
    id ∈ s.lockedIds ↔ ∃ n, s.nodes.get? id = some n ∧ n.state = .locked := by
  rw [lockedIds, List.mem_map]
  constructor
  · rintro ⟨e, he, rfl⟩
    obtain ⟨he, hl⟩ := List.mem_filter.mp he
    exact ⟨e.2, Table.get?_of_mem he, eq_of_beq hl⟩
  · rintro ⟨n, hn, hl⟩
    exact ⟨(id, n), List.mem_filter.mpr ⟨Table.mem_entries.mpr hn, beq_iff_eq.mpr hl⟩, rfl⟩

theorem nodup_lockedIds (s : WorkflowStore) : s.lockedIds.Nodup :=
  (List.filter_sublist.map _).nodup s.nodes.keys_nodup

/-- A node is kept with an instance that was committed, and listed with it. -/
theorem Sound.of_mem_values (h : s.Sound) (hn : n ∈ s.nodes.values) :
    ∃ x nodes, s.instances.get? n.owner.instanceId = some x ∧
      s.nodesOf? n.owner.instanceId = some nodes ∧ n ∈ nodes := by
  obtain ⟨e, he, rfl⟩ := List.mem_map.mp hn
  have hget := Table.get?_of_mem he
  obtain ⟨x, hx, -⟩ := owner?_eq_some (h.owned _ _ hget)
  obtain ⟨ids, hids, -⟩ := h.listed _ _ hget
  obtain ⟨nodes, hnodes⟩ := exists_nodesOf? hids
  exact ⟨x, nodes, hx, hnodes, (h.mem_nodesOf? hnodes).mpr ⟨(h.keyed _ _ hget).symm ▸ hget, rfl⟩⟩

/-- Of the nodes that were locked, some are unlocked, and the others may still be locked. -/
theorem Sound.locked_settle (h : s.Sound) (hn : s.nodes.get? m.id = some n) (hm : n.Onward m)
    (hfit : m.Fit) (hx : s.instances.get? x.id = some x) (note : Notification) :
    (s.unlockedBy m).length + (s.settle note m x).lockedIds.length ≤ s.lockedIds.length := by
  have hlook := (h.becomes_settle hn hm hfit hx note).nodes
  have hdisjoint : ∀ id ∈ (s.unlockedBy m).map (·.id), ∀ k ∈ (s.settle note m x).lockedIds,
      id ≠ k := by
    rintro _ hid k hk rfl
    obtain ⟨u, hu, rfl⟩ := List.mem_map.mp hid
    obtain ⟨u', hu', hl⟩ := mem_lockedIds.mp hk
    rw [hlook, h.advance_of_mem_unlockedBy hn hm hfit hu] at hu'
    obtain rfl := Option.some.inj hu'
    cases hl
  have hnodup := List.nodup_append.mpr
    ⟨h.nodup_unlockedBy hn hm hfit, (s.settle note m x).nodup_lockedIds, hdisjoint⟩
  have hsub : (s.unlockedBy m).map (·.id) ++ (s.settle note m x).lockedIds ⊆ s.lockedIds := by
    intro id hid
    rcases List.mem_append.mp hid with hid | hid
    · obtain ⟨u, hu, rfl⟩ := List.mem_map.mp hid
      obtain ⟨-, hget, hl⟩ := h.of_mem_unlockedBy hn hm hfit hu
      exact mem_lockedIds.mpr ⟨u, hget, hl⟩
    · obtain ⟨n', hn', hl⟩ := mem_lockedIds.mp hid
      rw [hlook] at hn'
      obtain ⟨k, hk⟩ : ∃ k, s.nodes.get? id = some k := by
        rcases Lookup.of_advance hn' with ⟨rfl, -⟩ | ⟨k, -, hk, -⟩
        · exact ⟨n, hn⟩
        · exact ⟨k, hk⟩
      -- a node that is locked now was never anything else
      obtain ⟨k', hk', honward⟩ := Lookup.onward_advance hn hm hk
      obtain rfl := Option.some.inj (hn'.symm.trans hk')
      exact mem_lockedIds.mpr ⟨k, hk, by_contra fun hne => honward.not_locked hne hl⟩
  have hle := (hnodup.subperm hsub).length_le
  rwa [List.length_append, List.length_map] at hle

end WorkflowStore

namespace Workshop

variable {w w' : Workshop} {id : NodeId} {as : List Activation}

theorem Serves.length_queue_le (h : Serves id w w') :
    w'.mailbox.queue.length ≤ w.mailbox.queue.length + 1 := by
  rcases h.outcome with hstill | ⟨note, l, x, hm⟩
  · rw [hstill.mailbox]
    exact Nat.le_succ _
  · rw [hm.mailbox, Mailbox.send]
    split
    · exact List.length_append.le
    · exact Nat.le_succ _

/-- Each activation sends at most one notification. -/
theorem Inits.length_queue_le (h : Inits w as w') (hw : w.Coherent) :
    w'.mailbox.queue.length ≤ w.mailbox.queue.length + as.length := by
  induction h with
  | nil => exact Nat.le_refl _
  | init hi a ih =>
      have hc := (hi.served (P := fun _ => True) hw fun _ _ => trivial).coherent hw
      have hlast := (init_serves hc {} a).length_queue_le
      rw [List.length_append, List.length_singleton]
      omega
  | count _ _ ih => exact ih

end Workshop

namespace Engine

open WorkflowStore Workshop

variable {e : Engine}

/-! ### One turn -/

theorem lockedCount_eq (e : Engine) : e.lockedCount = e.workflows.lockedIds.length := by
  rw [lockedCount, lockedIds, Table.values, List.filter_map, List.length_map, List.length_map]
  rfl

theorem Steady.deliver (h : e.Steady) : (Op.deliver.perform e).2.Steady :=
  h.effect (effect_perform h .deliver)

theorem Took.backlog {e₁ : Engine} {note : Notification} (h : Took note e e₁) :
    e₁.backlog + 1 = e.backlog := by
  have hcount : e₁.lockedCount = e.lockedCount := by rw [h.rest, lockedCount, lockedCount]
  rw [Engine.backlog, Engine.backlog, h.queue, hcount, List.length_cons]
  omega

/-- The notifications of tasks that are activated are to be processed, too. -/
theorem Activates.backlog_le {e' : Engine} {as : List Activation} (h : Activates e as e')
    (hc : e.workshop.Coherent) : e'.backlog ≤ e.backlog + as.length := by
  have hsent := h.workshop.length_queue_le hc
  rw [backlog, backlog, lockedCount_eq, lockedCount_eq, h.workflows]
  omega

/-- The nodes that are unlocked make up for the notifications of their tasks. -/
theorem Takes.backlog_settled {note : Notification} {n m : WorkflowNode} {x : WorkflowInstance}
    (ht : e.Takes note n m) (hs : e.workflows.Sound)
    (hx : e.workflows.instances.get? x.id = some x) (calls : Nat) :
    (e.settled note m x calls).backlog + (e.workflows.unlockedBy m).length ≤ e.backlog := by
  have hlocked := hs.locked_settle ht.found ht.onward (ht.fit hs) hx note
  rw [backlog, backlog, lockedCount_eq, lockedCount_eq]
  change e.workshop.mailbox.queue.length + (e.workflows.settle note m x).lockedIds.length + _ ≤ _
  omega

/-- **One turn.** There is less to be done after it. -/
theorem deliver_backlog (h : e.Steady) {note : Notification} {rest : List Notification}
    (hq : e.workshop.mailbox.queue = note :: rest) :
    (Op.deliver.perform e).2.backlog < e.backlog := by
  obtain ⟨as, hc⟩ := exists_course h .deliver
  generalize (Op.deliver.perform e).2 = e' at hc ⊢
  cases hc with
  | idle hempty => cases hq.symm.trans hempty
  | @refused _ k f e₁ _ calls hop hr hw =>
      have htaken : e₁.backlog + 1 = e.backlog := Took.backlog hop
      have hsent : e'.backlog ≤ e₁.backlog + 0 := hw.backlog_le (h.brings hop).coherent
      omega
  | @carried _ k n m x e₁ _ calls hop ht hx hid hw =>
      have h₁ := h.brings hop
      have hsame := hop.rest.1
      have htaken : e₁.backlog + 1 = e.backlog := Took.backlog hop
      have hcoherent : (e₁.settled k m x calls).workshop.Coherent :=
        h₁.coherent.of_eq rfl rfl (fun _ _ hc => hc) fun _ hq => hq
      have hsent := hw.backlog_le hcoherent
      have ht₁ := ht.of_nodes (f := e₁) (by rw [hsame])
      have hsettled := ht₁.backlog_settled h₁.sound (by rw [hsame, hid, hx]) calls
      rw [registrations, List.length_map, ← hsame] at hsent
      omega
  | outside hop => exact hop.elim

/-! ### As many as it takes -/

theorem consume_of_empty (hq : e.workshop.mailbox.queue = []) : e.consume = (0, e) := by
  rw [consume, drain_of_empty hq]
  rfl

/-- There is nothing left after as many turns as there is to be done. -/
theorem queue_drain {k : Nat} (h : e.Steady) (hk : e.backlog ≤ k) :
    (drain process k e).2.workshop.mailbox.queue = [] := by
  induction k generalizing e with
  | zero => exact List.length_eq_zero_iff.mp (Nat.eq_zero_of_add_eq_zero (Nat.le_zero.mp hk)).1
  | succ k ih =>
      rcases hq : e.workshop.mailbox.queue with _ | ⟨note, rest⟩
      · rw [drain_of_empty hq]
        exact hq
      · obtain ⟨r, hdrain⟩ := drain_succ hq
        have hless := deliver_backlog h hq
        rw [hdrain]
        exact ih h.deliver (by omega)

/-- More turns than there is to be done do nothing more. -/
theorem drain_enough {j k : Nat} (h : e.Steady) (hj : e.backlog ≤ j) (hk : e.backlog ≤ k) :
    drain process j e = drain process k e := by
  induction j generalizing e k with
  | zero =>
      have hq : e.workshop.mailbox.queue = [] := queue_drain h hj
      rw [drain_of_empty hq, drain_of_empty hq]
  | succ j ih =>
      rcases hq : e.workshop.mailbox.queue with _ | ⟨note, rest⟩
      · rw [drain_of_empty hq, drain_of_empty hq]
      · have hless := deliver_backlog h hq
        cases k with
        | zero => omega
        | succ k =>
            obtain ⟨r, hdrain⟩ := drain_succ hq
            rw [hdrain, hdrain, ih h.deliver (k := k) (by omega) (by omega)]

theorem length_drain_le (h : e.Steady) (k : Nat) : (drain process k e).1.length ≤ e.backlog := by
  induction k generalizing e with
  | zero => exact Nat.zero_le _
  | succ k ih =>
      rcases hq : e.workshop.mailbox.queue with _ | ⟨note, rest⟩
      · rw [drain_of_empty hq]
        exact Nat.zero_le _
      · obtain ⟨r, hdrain⟩ := drain_succ hq
        have hless := deliver_backlog h hq
        have hrest := ih h.deliver
        rw [hdrain, List.length_cons]
        omega

/-- **In their order.** The notifications that are processed are all that the turns take. -/
theorem drain_mails (e : Engine) (k : Nat) : ∃ attempted accepted,
    Mails e attempted accepted ((drain process k e).1.map (·.1)) (drain process k e).2 := by
  induction k generalizing e with
  | zero => exact ⟨[], [], .nil⟩
  | succ k ih =>
      rcases hq : e.workshop.mailbox.queue with _ | ⟨note, rest⟩
      · rw [drain_of_empty hq]
        exact ⟨[], [], .nil⟩
      · obtain ⟨r, hdrain⟩ := drain_succ hq
        rw [hdrain]
        obtain ⟨attempted, accepted, hrest⟩ := ih (Op.deliver.perform e).2
        obtain ⟨notes, hp⟩ := exists_posts e .deliver
        have htakes : Op.deliver.takes e.mailroom = some note := by
          rw [Op.takes, mailroom, Workshop.mailroom, Mailbox.take?, hq]
        have hfirst := Mails.nil.snoc (show Op.deliver.Attended e from trivial) hp
        rw [htakes] at hfirst
        exact ⟨_, _, hfirst.trans hrest⟩

end Engine

/-! ### A consumer -/

namespace Consumer

open Engine

/-- Something happens to the engine.  When a notification is delivered, it is the consumer's turn. -/
def perform (c : Consumer) : Op → Consumer
  | .deliver => c.turn
  | op => { c with engine := (op.perform c.engine).2 }

/-- The consumer after operations one after the other. -/
def after (ops : List Op) (c : Consumer) : Consumer := ops.foldl perform c

theorem engine_perform (c : Consumer) (op : Op) :
    (c.perform op).engine = (op.perform c.engine).2 := by
  cases op with
  | deliver =>
      rcases receive_eq c.engine with ⟨-, he⟩ | ⟨note, e, -, he⟩ <;>
      · rw [perform, turn, he, Op.perform, he]
  | _ => rfl

theorem engine_after (c : Consumer) (ops : List Op) :
    (c.after ops).engine = Engine.after ops c.engine := by
  induction ops generalizing c with
  | nil => rfl
  | cons op rest ih =>
      rw [after, List.foldl_cons, ← after, ih, engine_perform]
      rfl

/-- The consumer counts what it takes. -/
theorem processed_perform (c : Consumer) (op : Op) :
    (c.perform op).processed = c.processed + (op.takes c.engine.mailroom).toList.length := by
  cases op with
  | deliver =>
      have htakes : Op.deliver.takes c.engine.mailroom = c.engine.receive.1 := rfl
      rcases receive_eq c.engine with ⟨-, he⟩ | ⟨note, e, -, he⟩ <;>
      · rw [htakes, perform, turn, he]
        rfl
  | _ => rfl

/-- The engine of a consumer that counts all the notifications that are processed. -/
structure Counts (c : Consumer) : Prop where
  steady : c.engine.Steady
  total : c.processed = c.engine.mailroom.processed + c.engine.mailroom.failed

theorem counts_ofCapacity (containers notifications : Nat) :
    Counts { engine := ofCapacity containers notifications } :=
  ⟨steady_ofCapacity containers notifications, rfl⟩

theorem Counts.perform {c : Consumer} (h : c.Counts) (op : Op) : (c.perform op).Counts := by
  obtain ⟨notes, hp⟩ := exists_posts c.engine op
  refine ⟨?_, ?_⟩
  · rw [engine_perform]
    exact h.steady.effect (effect_perform h.steady op)
  · rw [engine_perform, processed_perform, hp.handled, h.total]

theorem Counts.after {c : Consumer} (h : c.Counts) (ops : List Op) : (c.after ops).Counts := by
  induction ops generalizing c with
  | nil => exact h
  | cons op rest ih => exact ih (h.perform op)

/-- A consumer that is stopped processes these notifications, with these results, and then the
engine is `e'`. -/
structure Drains (c : Consumer) (log : List (Notification × Except Failure Unit)) (e' : Engine) :
    Prop where
  /-- The drain ends by itself: where it may go on, it does not. -/
  ends : ∀ limit, c.engine.backlog ≤ limit → drain process limit c.engine = (log, e')
  bounded : log.length ≤ c.engine.workshop.mailbox.queue.length + c.engine.lockedCount
  /-- The nodes that are locked there, and all others, are of instances that were committed. -/
  committed : ∀ n ∈ c.engine.workflows.nodes.values, ∃ x nodes,
    c.engine.workflows.instances.get? n.owner.instanceId = some x ∧
      c.engine.workflows.nodesOf? n.owner.instanceId = some nodes ∧ n ∈ nodes
  /-- What is queued is processed, and after it what is accepted during the drain. -/
  complete : ∃ attempted accepted, Mails c.engine attempted accepted (log.map (·.1)) e' ∧
    log.map (·.1) = c.engine.workshop.mailbox.queue ++ accepted
  empty : e'.workshop.mailbox.queue = []
  answer : c.stop = (c.processed + log.length, e'.deserted)
  closed : c.stop.2.workshop.mailbox.queue = [] ∧ c.stop.2.workshop.mailbox.isOpen = false
  /-- That is how many were ever processed, with or without success. -/
  total : c.processed + log.length = e'.workshop.metrics.count .notificationProcessed +
    e'.workshop.metrics.count .notificationFailed

theorem Counts.drains {c : Consumer} (h : c.Counts) :
    c.Drains (drain process c.engine.backlog c.engine).1
      (drain process c.engine.backlog c.engine).2 := by
  have hempty := queue_drain h.steady (Nat.le_refl _)
  obtain ⟨attempted, accepted, hm⟩ := drain_mails c.engine c.engine.backlog
  have hqueue := hm.conserves.queue
  rw [hempty, List.append_nil] at hqueue
  have hanswer : c.stop = (c.processed + (drain process c.engine.backlog c.engine).1.length,
      (drain process c.engine.backlog c.engine).2.deserted) := by
    -- once the mailbox is closed, nothing is left for the second loop
    have hrest : (drain process c.engine.backlog c.engine).2.closed.consume = (0, _) :=
      consume_of_empty hempty
    rw [stop, consume]
    dsimp only
    rw [hrest]
    rfl
  refine ⟨fun limit hl => drain_enough h.steady hl (Nat.le_refl _), length_drain_le h.steady _,
    fun _ => h.steady.sound.of_mem_values, ⟨attempted, accepted, hm, hqueue.symm⟩, hempty, hanswer,
    ?_, ?_⟩
  · rw [hanswer]
    exact ⟨rfl, rfl⟩
  · rw [h.total, ← List.length_map (·.1)]
    exact hm.conserves.handled.symm

end Consumer

namespace Engine

/-- **The drain ends and loses nothing.** A consumer is stopped after any run.  It processes what is
queued and what is accepted meanwhile, in the order in which it was accepted, which is at most as
much as there are queued notifications and locked nodes.  Then the mailbox is empty and closed, and
the answer is how many notifications the consumer has ever processed. -/
theorem shutdown_drains (containers notifications : Nat) (ops : List Op) :
    (Consumer.after ops { engine := ofCapacity containers notifications }).engine =
        after ops (ofCapacity containers notifications) ∧
      ∃ log e',
        (Consumer.after ops { engine := ofCapacity containers notifications }).Drains log e' :=
  ⟨Consumer.engine_after _ ops, _, _,
    ((Consumer.counts_ofCapacity containers notifications).after ops).drains⟩

/-- A permit is applied for, and the form is filled in. -/
def filled : Engine :=
  after [.create .consignment permit {}, .execute {} ⟨"$1-apply"⟩ ⟨"submit", .null⟩]
    (ofCapacity 1 8)

/-- The wait for the payment starts during the drain, and its notification is processed, too. -/
example : filled.workshop.mailbox.queue.length = 2 ∧ filled.shutdown.1 = 3 := by
  simp only [filled, after, List.foldl_cons, List.foldl_nil, Op.perform,
    createInstance_of_valid permit_valid]
  decide +kernel

end Engine

end Clearance
