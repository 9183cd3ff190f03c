import Clearance.Proofs.Act
import Clearance.Task.Workshop

/-!
# Clearance — Proofs — Task — The mailroom

The mailbox, and what is counted of its notifications.  Nothing in the task layer looks at it.

* `Mailroom.send`: one notification is accepted or dropped.
* `Mailroom.posted_post`: what several of them leave, sent one after the other.
* `Act.Posts`: an action that sends certain notifications and else does the same, whatever is in the
  mailroom.
* `Workshop.init_posts`, `Workshop.execute_posts`, `Workshop.render_posts`,
  `Workshop.snapshot_posts`: the operations on a task are such actions.
-/

namespace Clearance

/-- The mailbox, and how many notifications were sent to it, were dropped, and were processed with
and without success. -/
structure Mailroom where
  mailbox : Mailbox
  sent : Nat
  dropped : Nat
  processed : Nat
  failed : Nat

/-- The mailbox is open and below its capacity. -/
def Mailbox.Free (m : Mailbox) : Prop := m.isOpen = true ∧ m.queue.length < m.capacity

instance (m : Mailbox) : Decidable m.Free := inferInstanceAs (Decidable (_ ∧ _))

theorem Mailbox.accepts_eq (m : Mailbox) : m.accepts = decide m.Free := by
  rw [accepts, Bool.eq_iff_iff, Bool.and_eq_true, decide_eq_true_iff, decide_eq_true_iff, Free]

namespace Mailroom

/-- One notification is sent: a free mailbox accepts it, and else it is dropped. -/
def send (r : Mailroom) (note : Notification) : Mailroom :=
  if r.mailbox.Free then
    { r with
      mailbox := { r.mailbox with queue := r.mailbox.queue ++ [note] }
      sent := r.sent + 1 }
  else { r with dropped := r.dropped + 1 }

/-- Notifications are sent one after the other. -/
def post (r : Mailroom) (notes : List Notification) : Mailroom := notes.foldl send r

/-- Those of them that are accepted. -/
def accepted (r : Mailroom) : List Notification → List Notification
  | [] => []
  | note :: rest => (if r.mailbox.Free then [note] else []) ++ (r.send note).accepted rest

/-- Notifications were processed, some with success and some without. -/
def tally (r : Mailroom) (processed failed : Nat) : Mailroom :=
  { r with processed := r.processed + processed, failed := r.failed + failed }

theorem post_append (r : Mailroom) (xs ys : List Notification) :
    r.post (xs ++ ys) = (r.post xs).post ys := List.foldl_append

theorem accepted_cons (r : Mailroom) (note : Notification) (rest : List Notification) :
    r.accepted (note :: rest) = r.accepted [note] ++ (r.send note).accepted rest := by
  rw [accepted, accepted, accepted, List.append_nil]

/-- Of notifications that were sent, some were accepted and queued in their order, and the others
were dropped. -/
structure Posted (r : Mailroom) (notes : List Notification) (r' : Mailroom) : Prop where
  queue : r'.mailbox.queue = r.mailbox.queue ++ r.accepted notes
  capacity : r'.mailbox.capacity = r.mailbox.capacity
  bounded : r.mailbox.queue.length ≤ r.mailbox.capacity →
    r'.mailbox.queue.length ≤ r'.mailbox.capacity
  sent : r'.sent = r.sent + (r.accepted notes).length
  attempts : r'.sent + r'.dropped = r.sent + r.dropped + notes.length
  processed : r'.processed = r.processed
  failed : r'.failed = r.failed

theorem posted_send (r : Mailroom) (note : Notification) : r.Posted [note] (r.send note) := by
  by_cases hfree : r.mailbox.Free
  · have haccepted : r.accepted [note] = [note] := by
      rw [accepted, if_pos hfree]
      rfl
    rw [send, if_pos hfree]
    refine ⟨?_, rfl, fun _ => ?_, ?_, ?_, rfl, rfl⟩
    · rw [haccepted]
    · show (r.mailbox.queue ++ [note]).length ≤ r.mailbox.capacity
      rw [List.length_append]
      exact hfree.2
    · rw [haccepted]
      rfl
    · exact Nat.add_right_comm _ _ _
  · have haccepted : r.accepted [note] = [] := by
      rw [accepted, if_neg hfree]
      rfl
    rw [send, if_neg hfree]
    refine ⟨?_, rfl, id, ?_, rfl, rfl, rfl⟩
    · rw [haccepted, List.append_nil]
    · rw [haccepted]
      rfl

/-- **Posted.** -/
theorem posted_post (r : Mailroom) (notes : List Notification) : r.Posted notes (r.post notes) := by
  induction notes generalizing r with
  | nil => exact ⟨(List.append_nil _).symm, rfl, id, rfl, rfl, rfl, rfl⟩
  | cons note rest ih =>
      obtain ⟨hq, hcap, hle, hsent, hattempts, hp, hf⟩ := posted_send r note
      have h := ih (r.send note)
      rw [show r.post (note :: rest) = (r.send note).post rest from rfl]
      refine ⟨?_, h.capacity.trans hcap, h.bounded ∘ hle, ?_, ?_, h.processed.trans hp,
        h.failed.trans hf⟩
      · rw [h.queue, hq, accepted_cons r note rest, List.append_assoc]
      · rw [h.sent, hsent, accepted_cons r note rest, List.length_append, Nat.add_assoc]
      · rw [h.attempts, hattempts, List.length_cons, List.length_cons, List.length_nil]
        omega

end Mailroom

/-! ### Actions that send -/

namespace Act

variable {σ τ α β : Type}

/-- Whatever is in the mailroom, the action sends the same notifications, one after the other, gives
the same answer and leaves the same state around the mailroom. -/
def Posts (put : Mailroom → σ → σ) (a : Act σ α) : Prop :=
  ∀ s, ∃ notes answer t, ∀ r : Mailroom, a.go (put r s) = (answer, put (r.post notes) t)

namespace Posts

variable {put : Mailroom → σ → σ}

/-- An action that sends nothing. -/
theorem of_silent {a : Act σ α}
    (h : ∀ s, ∃ answer t, ∀ r, a.go (put r s) = (answer, put r t)) : Posts put a := by
  intro s
  obtain ⟨answer, t, hgo⟩ := h s
  exact ⟨[], answer, t, hgo⟩

theorem bind {a : Act σ α} {f : α → Act σ β} (ha : Posts put a) (hf : ∀ x, Posts put (f x)) :
    Posts put (a >>= f) := by
  intro s
  obtain ⟨notes, answer, t, hgo⟩ := ha s
  cases answer with
  | error f => exact ⟨notes, .error f, t, fun r => by rw [go_bind, hgo]⟩
  | ok x =>
      obtain ⟨more, answer, u, hgo'⟩ := hf x t
      refine ⟨notes ++ more, answer, u, fun r => ?_⟩
      rw [go_bind_ok (hgo r), hgo', Mailroom.post_append]

theorem attempt {a : Act σ α} (ha : Posts put a) : Posts put a.attempt := by
  intro s
  obtain ⟨notes, answer, t, hgo⟩ := ha s
  exact ⟨notes, .ok answer, t, fun r => go_attempt (hgo r)⟩

theorem closed (put : Mailroom → σ → σ) : Closed (Posts put) where
  pure x := of_silent fun s => ⟨.ok x, s, fun _ => rfl⟩
  throw f := of_silent fun s => ⟨.error f, s, fun _ => rfl⟩
  bind := bind
  attempt := attempt

end Posts

end Act

/-- A counter of the mailroom. -/
def MetricKind.ofMail : MetricKind → Bool
  | .notificationSent | .notificationDropped | .notificationProcessed | .notificationFailed => true
  | _ => false

namespace Workshop

def mailroom (w : Workshop) : Mailroom where
  mailbox := w.mailbox
  sent := w.metrics.notificationsSent
  dropped := w.metrics.notificationsDropped
  processed := w.metrics.notificationsProcessed
  failed := w.metrics.notificationsFailed

def withMailroom (r : Mailroom) (w : Workshop) : Workshop :=
  { w with
    mailbox := r.mailbox
    metrics := { w.metrics with
      notificationsSent := r.sent
      notificationsDropped := r.dropped
      notificationsProcessed := r.processed
      notificationsFailed := r.failed } }

/-- The action does not look at the mailroom. -/
abbrev Posts {α : Type} (a : Act Workshop α) : Prop := Act.Posts withMailroom a

theorem closed_posts : Act.Closed Posts := Act.Posts.closed withMailroom

/-! ### Containers -/

theorem count_posts {k : MetricKind} (hk : k.ofMail = false) : Posts (count k) := by
  refine .of_silent fun w => ⟨.ok (), { w with metrics := w.metrics.record k }, fun r => ?_⟩
  cases k with
  | notificationSent => cases hk
  | notificationDropped => cases hk
  | notificationProcessed => cases hk
  | notificationFailed => cases hk
  | _ => rfl

theorem onStore_posts {α : Type} (a : Act TaskStore α) : Posts (onStore a) :=
  .of_silent fun w => ⟨((onStore a).go w).1, ((onStore a).go w).2, fun _ => rfl⟩

theorem lookUp_posts (id : NodeId) : Posts (lookUp id) := by
  refine .of_silent fun w => ⟨((lookUp id).go w).1, ((lookUp id).go w).2, fun r => ?_⟩
  show (lookUp id).go _ = _
  rw [lookUp, Act.go_of, Act.go_of]
  dsimp only [withMailroom]
  rcases w.cache.find (fun _ => false) id with ⟨_ | _ | _, cache⟩
  · rfl
  · rfl
  · rfl

theorem cacheNew_posts (c : Container) : Posts (cacheNew c) := by
  refine .of_silent fun w => ⟨((cacheNew c).go w).1, ((cacheNew c).go w).2, fun r => ?_⟩
  rw [cacheNew, Act.go_of, Act.go_of]
  dsimp only [withMailroom]
  rcases w.cache.insert (fun _ => false) c.handle.nodeId c with ⟨_ | _, cache⟩
  · rfl
  · rfl

theorem buildPlugin_posts (kind : TaskKind) (config : Json) : Posts (buildPlugin kind config) :=
  .of_silent fun w => ⟨_, { w with metrics := w.metrics.record .pluginBuild }, fun _ => rfl⟩

theorem acquire_posts (id : NodeId) {make : Act Workshop Container} (hm : Posts make) :
    Posts (acquire id make) := by
  refine (lookUp_posts id).bind fun c? => ?_
  cases c? with
  | some c => exact closed_posts.pure c
  | none => exact hm.bind fun c => (cacheNew_posts c).bind fun _ => closed_posts.pure c

theorem rebuild_posts (r : TaskRecord) : Posts (rebuild r) :=
  (buildPlugin_posts _ _).bind fun _ => closed_posts.pure _

theorem create_posts (a : Activation) : Posts (create a) := by
  refine (onStore_posts _).bind fun r? => ?_
  cases r? with
  | some r => exact rebuild_posts r
  | none =>
      exact (buildPlugin_posts _ _).bind fun _ => (onStore_posts _).bind fun _ =>
        closed_posts.pure _

theorem resolve_posts (id : NodeId) : Posts (resolve id) := by
  refine acquire_posts id ((onStore_posts _).bind fun r? => ?_)
  cases r? with
  | some r => exact rebuild_posts r
  | none => exact closed_posts.throw _

theorem work_posts {α : Type} (c : Container) (job : Act Bench α) : Posts (work c job) :=
  .of_silent fun w => ⟨((work c job).go w).1, ((work c job).go w).2, fun _ => rfl⟩

/-! ### Notifications -/

/-- Sending a notification changes nothing but the mailroom. -/
theorem send_go (n : Notification) (w : Workshop) :
    (send n).go w = (.ok (decide w.mailbox.Free), w.withMailroom (w.mailroom.send n)) := by
  rw [send, Act.go_of, Mailbox.send, Mailbox.accepts_eq, Mailroom.send]
  by_cases hfree : w.mailbox.Free
  · rw [if_pos (decide_eq_true hfree), if_pos (show w.mailroom.mailbox.Free from hfree),
      decide_eq_true hfree]
    rfl
  · rw [if_neg (Bool.not_eq_true _ ▸ decide_eq_false hfree),
      if_neg (show ¬ w.mailroom.mailbox.Free from hfree), decide_eq_false hfree]
    rfl

/-- Whether a notification is dropped does not matter to what is announced. -/
theorem announce_posts (id : NodeId) (x : Response) : Posts (announce id x) := by
  intro w
  unfold announce
  cases x.notification? id with
  | none => exact closed_posts.pure x w
  | some n =>
      refine ⟨[n], .ok x, w, fun r => ?_⟩
      rw [Act.go_bind_ok (send_go n _)]
      rfl

/-! ### Operations -/

theorem init_posts (ctx : CallContext) (a : Activation) : Posts (init ctx a) := by
  unfold init
  refine closed_posts.check ?_
  refine (acquire_posts _ (create_posts a)).bind fun c => ?_
  exact (work_posts c _).bind fun x => announce_posts _ x

theorem execute_posts (ctx : CallContext) (id : NodeId) (q : ActionRequest) :
    Posts (execute ctx id q) := by
  unfold execute
  refine closed_posts.check ?_
  refine (resolve_posts id).bind fun c => ?_
  exact (work_posts c _).bind fun x => announce_posts _ x

theorem render_posts (ctx : CallContext) (id : NodeId) : Posts (render ctx id) :=
  (resolve_posts id).bind fun c => work_posts c _

theorem snapshot_posts (id : NodeId) : Posts (snapshot id) :=
  (resolve_posts id).bind fun _ => closed_posts.pure _

end Workshop

end Clearance
