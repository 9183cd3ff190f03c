import Clearance.Proofs.Engine.Course
import Clearance.Proofs.Engine.Layered
import Clearance.Proofs.Task.Mailroom

/-!
# Clearance — Proofs — Engine — Nothing that was accepted is lost

* `Engine.Op.Posts`: which notifications an operation sends, and that it does the same whatever is in
  the mailroom.
* `Engine.exists_posts`: every operation is so.
* `Engine.Mails`: a run of operations, and the notifications that were sent in it, those of them that
  were accepted, and those that the consumer took.
* `Engine.Mails.conserves`: what was accepted comes behind what was queued, and what was taken before
  what is.
* `Engine.mailbox_conserves`: a run from the start.
-/

namespace Clearance

/-- What is taken out of a mailbox is first in its queue. -/
theorem Mailbox.queue_take? (m : Mailbox) :
    m.queue = m.take?.1.toList ++ m.take?.2.queue ∧ m.take?.2.capacity = m.capacity := by
  unfold take?
  split
  · exact ⟨rfl, rfl⟩
  · rename_i hq
    exact ⟨hq, rfl⟩

namespace Engine

open Workshop

def mailroom (e : Engine) : Mailroom := e.workshop.mailroom

def withMailroom (r : Mailroom) (e : Engine) : Engine :=
  { e with workshop := e.workshop.withMailroom r }

/-! ### The workflow layer -/

theorem onWorkshop_posts {α : Type} {a : Act Workshop α} (ha : Posts a) :
    Act.Posts withMailroom (onWorkshop a) := by
  intro e
  obtain ⟨notes, answer, w, hgo⟩ := ha e.workshop
  exact ⟨notes, answer, { e with workshop := w }, fun r => onWorkshop_go (hgo r)⟩

theorem layered_posts : Layered (Act.Posts withMailroom) where
  toClosed := Act.Posts.closed withMailroom
  workflows a :=
    .of_silent fun e => ⟨((onWorkflows a).go e).1, ((onWorkflows a).go e).2, fun _ => rfl⟩
  fresh := .of_silent fun e => ⟨(freshInstanceId.go e).1, (freshInstanceId.go e).2, fun _ => rfl⟩
  init a := onWorkshop_posts (init_posts {} a)
  unlocked := onWorkshop_posts (count_posts rfl)
  unregistered := onWorkshop_posts (count_posts rfl)

/-! ### One operation -/

/-- The notification that an operation takes out of the mailbox, if it takes one. -/
def Op.takes (r : Mailroom) : Op → Option Notification
  | .deliver => r.mailbox.take?.1
  | _ => none

/-- The mailroom as it is when an operation sends its first notification. -/
def Op.enters (r : Mailroom) : Op → Mailroom
  | .deliver => { r with mailbox := r.mailbox.take?.2 }
  | .close => { r with mailbox := r.mailbox.close }
  | .discard => { r with mailbox := r.mailbox.abandon }
  | _ => r

/-- The operation sends these notifications, one after the other, and counts those it took as
processed.  Whatever else is queued, accepted or dropped, it gives the same answer and leaves the
same engine around the mailroom. -/
def Op.Posts (e : Engine) (op : Op) (notes : List Notification) : Prop :=
  ∃ (answer : Answer) (e' : Engine) (processed failed : Nat),
    processed + failed = (op.takes e.mailroom).toList.length ∧
    ∀ r, op.takes r = op.takes e.mailroom →
      op.perform (e.withMailroom r) =
        (answer, e'.withMailroom (((op.enters r).post notes).tally processed failed))

/-- The reader of the mailbox goes away only once nothing is queued. -/
def Op.Attended (e : Engine) : Op → Prop
  | .discard => e.workshop.mailbox.queue = []
  | _ => True

section Step

variable {e : Engine} {op : Op} {notes : List Notification}

/-- An operation that is an action of one of the layers. -/
theorem exists_posts_of_go {α : Type} {a : Act Engine α} (ha : Act.Posts withMailroom a)
    {answer : Except Failure α → Answer}
    (hop : ∀ e, op.perform e = (answer (a.go e).1, (a.go e).2)) (ht : ∀ r, op.takes r = none)
    (he : ∀ r, op.enters r = r) : ∃ notes, op.Posts e notes := by
  obtain ⟨notes, x, e', hgo⟩ := ha e
  refine ⟨notes, answer x, e', 0, 0, ?_, fun r _ => ?_⟩
  · rw [ht]
    rfl
  · rw [hop, hgo, he]
    rfl

/-- What is sent while a notification is processed is sent after it was taken, and before it is
counted. -/
theorem deliver_posts (e : Engine) : ∃ notes, Op.deliver.Posts e notes := by
  have hreceive : ∀ r, (e.withMailroom r).receive =
      (r.mailbox.take?.1, e.withMailroom (Op.deliver.enters r)) := fun _ => rfl
  cases ht : Op.deliver.takes e.mailroom with
  | none =>
      refine ⟨[], .taken none, e, 0, 0, ?_, fun r hr => ?_⟩
      · rw [ht]
        rfl
      · rw [Op.perform, hreceive, show r.mailbox.take?.1 = none from hr.trans ht]
        rfl
  | some note =>
      have hone : (Op.deliver.takes e.mailroom).toList.length = 1 := by
        rw [ht]
        rfl
      have hsome : ∀ {r}, Op.deliver.takes r = Op.deliver.takes e.mailroom →
          r.mailbox.take?.1 = some note := fun hr => hr.trans ht
      obtain ⟨notes, answer, e', hgo⟩ := layered_posts.handle note e
      cases answer with
      | ok p =>
          refine ⟨notes, .taken (some note), e', 1, 0, hone.symm, fun r hr => ?_⟩
          rw [Op.perform, hreceive, hsome hr]
          dsimp only
          rw [process_go, hgo]
          rfl
      | error f =>
          refine ⟨notes, .taken (some note), e', 0, 1, hone.symm, fun r hr => ?_⟩
          rw [Op.perform, hreceive, hsome hr]
          dsimp only
          rw [process_go, hgo]
          rfl

theorem exists_posts (e : Engine) (op : Op) : ∃ notes, op.Posts e notes := by
  cases op with
  | create kind d globalContext =>
      exact exists_posts_of_go (layered_posts.createInstance kind d globalContext) (fun _ => rfl)
        (fun _ => rfl) fun _ => rfl
  | init ctx a =>
      exact exists_posts_of_go (onWorkshop_posts (init_posts ctx a)) (fun _ => rfl) (fun _ => rfl)
        fun _ => rfl
  | execute ctx id q =>
      exact exists_posts_of_go (onWorkshop_posts (execute_posts ctx id q)) (fun _ => rfl)
        (fun _ => rfl) fun _ => rfl
  | render ctx id =>
      exact exists_posts_of_go (onWorkshop_posts (render_posts ctx id)) (fun _ => rfl)
        (fun _ => rfl) fun _ => rfl
  | snapshot id =>
      exact exists_posts_of_go (onWorkshop_posts (snapshot_posts id)) (fun _ => rfl)
        (fun _ => rfl) fun _ => rfl
  | deliver => exact deliver_posts e
  | notify note =>
      exact exists_posts_of_go (layered_posts.handle note) (fun _ => rfl) (fun _ => rfl) fun _ => rfl
  | outage available faults =>
      exact ⟨[], .done, (Op.perform e (.outage available faults)).2, 0, 0, rfl, fun _ _ => rfl⟩
  | agencies reachable replies =>
      exact ⟨[], .done, (Op.perform e (.agencies reachable replies)).2, 0, 0, rfl, fun _ _ => rfl⟩
  | close => exact ⟨[], .done, e, 0, 0, rfl, fun _ _ => rfl⟩
  | discard => exact ⟨[], .done, e, 0, 0, rfl, fun _ _ => rfl⟩

/-! ### What is kept -/

/-- Between two engines notifications were sent, some of them were accepted, and some were taken. -/
structure Conserves (e : Engine) (attempted accepted taken : List Notification) (e' : Engine) :
    Prop where
  queue : e.workshop.mailbox.queue ++ accepted = taken ++ e'.workshop.mailbox.queue
  capacity : e'.workshop.mailbox.capacity = e.workshop.mailbox.capacity
  bounded : e.workshop.mailbox.queue.length ≤ e.workshop.mailbox.capacity →
    e'.workshop.mailbox.queue.length ≤ e'.workshop.mailbox.capacity
  sent : e'.mailroom.sent = e.mailroom.sent + accepted.length
  attempts : e'.mailroom.sent + e'.mailroom.dropped =
    e.mailroom.sent + e.mailroom.dropped + attempted.length
  handled : e'.mailroom.processed + e'.mailroom.failed =
    e.mailroom.processed + e.mailroom.failed + taken.length

theorem Conserves.refl (e : Engine) : Conserves e [] [] [] e :=
  ⟨List.append_nil _, rfl, id, rfl, rfl, rfl⟩

theorem Conserves.trans {e₁ e₂ : Engine} {xs ys zs xs' ys' zs' : List Notification}
    (h : Conserves e xs ys zs e₁) (h' : Conserves e₁ xs' ys' zs' e₂) :
    Conserves e (xs ++ xs') (ys ++ ys') (zs ++ zs') e₂ where
  queue := by
    rw [← List.append_assoc, h.queue, List.append_assoc, h'.queue, List.append_assoc]
  capacity := h'.capacity.trans h.capacity
  bounded := h'.bounded ∘ h.bounded
  sent := by rw [h'.sent, h.sent, List.length_append, Nat.add_assoc]
  attempts := by rw [h'.attempts, h.attempts, List.length_append, Nat.add_assoc]
  handled := by rw [h'.handled, h.handled, List.length_append, Nat.add_assoc]

/-- What was queued is what an operation takes, followed by what its notifications come behind. -/
theorem Op.Attended.queue (h : op.Attended e) :
    e.workshop.mailbox.queue =
      (op.takes e.mailroom).toList ++ (op.enters e.mailroom).mailbox.queue := by
  cases op with
  | deliver => exact e.workshop.mailbox.queue_take?.1
  | discard => exact h
  | _ => rfl

theorem Op.capacity_enters (op : Op) (r : Mailroom) :
    (op.enters r).mailbox.capacity = r.mailbox.capacity := by
  cases op with
  | deliver => exact r.mailbox.queue_take?.2
  | _ => rfl

/-- An operation only counts the notifications that it sends and processes. -/
theorem Op.counters_enters (op : Op) (r : Mailroom) :
    (op.enters r).sent = r.sent ∧ (op.enters r).dropped = r.dropped ∧
      (op.enters r).processed = r.processed ∧ (op.enters r).failed = r.failed := by
  cases op <;> exact ⟨rfl, rfl, rfl, rfl⟩

/-- The mailroom that an operation leaves. -/
theorem Op.Posts.mailroom (h : op.Posts e notes) :
    ∃ processed failed, processed + failed = (op.takes e.mailroom).toList.length ∧
      (op.perform e).2.mailroom =
        ((op.enters e.mailroom).post notes).tally processed failed := by
  obtain ⟨answer, e', processed, failed, hcount, hperform⟩ := h
  exact ⟨processed, failed, hcount, congrArg (·.2.mailroom) (hperform e.mailroom rfl)⟩

/-- What an operation takes is counted as processed, with or without success. -/
theorem Op.Posts.handled (h : op.Posts e notes) :
    (op.perform e).2.mailroom.processed + (op.perform e).2.mailroom.failed =
      e.mailroom.processed + e.mailroom.failed + (op.takes e.mailroom).toList.length := by
  obtain ⟨processed, failed, hcount, hroom⟩ := h.mailroom
  obtain ⟨-, -, hprocessed, hfailed⟩ := op.counters_enters e.mailroom
  have hposted := (op.enters e.mailroom).posted_post notes
  rw [hroom, Mailroom.tally, hposted.processed, hposted.failed, hprocessed, hfailed, ← hcount]
  exact Nat.add_add_add_comm _ _ _ _

/-- **One operation** conserves the notifications. -/
theorem Op.Posts.conserves (h : op.Posts e notes) (ha : op.Attended e) :
    Conserves e notes ((op.enters e.mailroom).accepted notes) (op.takes e.mailroom).toList
      (op.perform e).2 := by
  obtain ⟨processed, failed, -, hroom⟩ := h.mailroom
  obtain ⟨hsent, hdropped, -, -⟩ := op.counters_enters e.mailroom
  have hposted := (op.enters e.mailroom).posted_post notes
  have hbox : (op.perform e).2.workshop.mailbox = ((op.enters e.mailroom).post notes).mailbox :=
    congrArg (·.mailbox) hroom
  have hcapacity := op.capacity_enters e.mailroom
  refine ⟨?_, ?_, fun hle => ?_, ?_, ?_, h.handled⟩
  · rw [hbox, hposted.queue, ← List.append_assoc, ← ha.queue]
  · rw [hbox]
    exact hposted.capacity.trans hcapacity
  · rw [hbox]
    refine hposted.bounded ((Nat.le_trans ?_ hle).trans_eq hcapacity.symm)
    rw [ha.queue, List.length_append]
    exact Nat.le_add_left _ _
  · rw [hroom, Mailroom.tally, hposted.sent, hsent]
  · rw [hroom, Mailroom.tally, hposted.attempts, hsent, hdropped]

end Step

/-! ### Runs -/

/-- A run of operations in which the reader of the mailbox does not go away from what is queued: the
notifications that are sent in it, those of them that are accepted, and those that are taken. -/
inductive Mails (e : Engine) :
    List Notification → List Notification → List Notification → Engine → Prop
  | nil : Mails e [] [] [] e
  | snoc {attempted accepted taken notes : List Notification} {e₁ : Engine} {op : Op}
      (h : Mails e attempted accepted taken e₁) (ha : op.Attended e₁) (hp : op.Posts e₁ notes) :
      Mails e (attempted ++ notes) (accepted ++ (op.enters e₁.mailroom).accepted notes)
        (taken ++ (op.takes e₁.mailroom).toList) (op.perform e₁).2

section Run

variable {e e₁ e' : Engine} {attempted accepted taken : List Notification}

theorem Mails.conserves (h : Mails e attempted accepted taken e') :
    Conserves e attempted accepted taken e' := by
  induction h with
  | nil => exact .refl e
  | snoc _ ha hp ih => exact ih.trans (hp.conserves ha)

theorem Mails.trans {xs ys zs : List Notification} (h : Mails e attempted accepted taken e₁)
    (h' : Mails e₁ xs ys zs e') : Mails e (attempted ++ xs) (accepted ++ ys) (taken ++ zs) e' := by
  induction h' with
  | nil =>
      rw [List.append_nil, List.append_nil, List.append_nil]
      exact h
  | snoc _ ha hp ih =>
      rw [← List.append_assoc, ← List.append_assoc, ← List.append_assoc]
      exact ih.snoc ha hp

theorem exists_mails (h : Reaches (fun e op => op.Attended e) e e') :
    ∃ attempted accepted taken, Mails e attempted accepted taken e' := by
  induction h with
  | refl => exact ⟨[], [], [], .nil⟩
  | step _ op ha ih =>
      obtain ⟨attempted, accepted, taken, hm⟩ := ih
      obtain ⟨notes, hp⟩ := exists_posts _ op
      exact ⟨_, _, _, hm.snoc ha hp⟩

end Run

/-- **Conservation.** An engine is reached by a run in which the reader of the mailbox does not go
away from what is queued.  The mailbox holds no more than its capacity, of which zero counts as one; a
notification that is sent is accepted exactly if the mailbox is open and below its capacity, and else
dropped.  Those that were accepted in the run are those that the consumer took, followed by those that
are queued.  Each that was sent is counted as sent or as dropped, and each that was accepted is
counted as processed, with or without success, or is queued.  Whatever is done next gives the same
answer and leaves the same engine whether its notifications are dropped or not. -/
theorem mailbox_conserves {containers notifications : Nat} {e : Engine}
    (h : Reaches (fun e op => op.Attended e) (ofCapacity containers notifications) e) :
    e.workshop.mailbox.capacity = max 1 notifications ∧
      e.workshop.mailbox.queue.length ≤ max 1 notifications ∧
      (∀ note, (Workshop.send note).go e.workshop =
        (.ok (decide e.workshop.mailbox.Free), e.workshop.withMailroom (e.mailroom.send note))) ∧
      (∃ attempted accepted taken,
        Mails (ofCapacity containers notifications) attempted accepted taken e) ∧
      (∀ attempted accepted taken,
        Mails (ofCapacity containers notifications) attempted accepted taken e →
          accepted = taken ++ e.workshop.mailbox.queue ∧
          e.workshop.metrics.count .notificationSent +
            e.workshop.metrics.count .notificationDropped = attempted.length ∧
          e.workshop.metrics.count .notificationSent = accepted.length) ∧
      e.workshop.metrics.count .notificationSent =
        e.workshop.metrics.count .notificationProcessed +
          e.workshop.metrics.count .notificationFailed + e.workshop.mailbox.queue.length ∧
      ∀ op : Op, ∃ notes, op.Posts e notes := by
  have hall : ∀ {attempted accepted taken},
      Mails (ofCapacity containers notifications) attempted accepted taken e →
        accepted = taken ++ e.workshop.mailbox.queue ∧
        e.mailroom.sent = accepted.length ∧
        e.mailroom.sent + e.mailroom.dropped = attempted.length ∧
        e.mailroom.processed + e.mailroom.failed = taken.length := by
    intro attempted accepted taken hm
    have hc := hm.conserves
    exact ⟨hc.queue, hc.sent.trans (Nat.zero_add _), hc.attempts.trans (Nat.zero_add _),
      hc.handled.trans (Nat.zero_add _)⟩
  obtain ⟨attempted, accepted, taken, hm⟩ := exists_mails h
  obtain ⟨hqueue, hsent, -, hhandled⟩ := hall hm
  have hcapacity : e.workshop.mailbox.capacity = max 1 notifications := hm.conserves.capacity
  have hbounded := hm.conserves.bounded (Nat.zero_le _)
  refine ⟨hcapacity, hcapacity ▸ hbounded, fun note => send_go note _, ⟨_, _, _, hm⟩,
    fun _ _ _ hm' => ?_, ?_, exists_posts e⟩
  · obtain ⟨hqueue', hsent', hattempts', -⟩ := hall hm'
    exact ⟨hqueue', hattempts', hsent'⟩
  · refine hsent.trans ?_
    rw [hqueue, List.length_append, ← hhandled]
    rfl

/-- An engine whose mailbox holds one notification, after two permits were applied for and the first
notification was taken. -/
def crowded : Engine :=
  after [.create .consignment permit {}, .create .consignment permit {}, .deliver] (ofCapacity 1 1)

/-- The notification of the second form was dropped, and nothing is queued. -/
theorem mailbox_conserves_crowded :
    ∃ attempted accepted taken, Mails (ofCapacity 1 1) attempted accepted taken crowded ∧
      attempted.length = 2 ∧ accepted.length = 1 ∧ taken = accepted := by
  have hreach : Reaches (fun e op => op.Attended e) (ofCapacity 1 1) crowded :=
    .step (.step (.step .refl _ trivial) _ trivial) .deliver trivial
  obtain ⟨-, -, -, ⟨attempted, accepted, taken, hm⟩, hall, -⟩ := mailbox_conserves hreach
  obtain ⟨hqueue, hattempted, haccepted⟩ := hall _ _ _ hm
  have hsent : crowded.workshop.metrics.count .notificationSent = 1 := by cbv
  have hdropped : crowded.workshop.metrics.count .notificationDropped = 1 := by cbv
  have hempty : crowded.workshop.mailbox.queue = [] := by cbv
  rw [hsent, hdropped] at hattempted
  rw [hempty, List.append_nil] at hqueue
  exact ⟨_, _, _, hm, hattempted.symm, haccepted.symm.trans hsent, hqueue.symm⟩

end Engine

end Clearance
