import Clearance.Proofs.Engine.Course
import Clearance.Proofs.Engine.Gate
import Clearance.Proofs.Engine.Pending
import Clearance.Proofs.Engine.Refusal

/-!
# Clearance — Proofs — Engine — Lost notifications

Notifications are dropped, and the node then lags behind its task.  Yet it accepts every one that is
still taken.

* `Engine.Op.Patient`: nothing is done to a task before its node is unlocked, and only queued
  notifications are handled.
* `Engine.Tolerant.effect`: locked nodes are untouched, terminal ones closed and what is queued is
  pending, whatever is done.
* `Engine.Tolerant.handles`, `Engine.Tolerant.refuses`: so what is taken of a node that is there is
  carried out, and anything else refused.
* `Engine.notifications_tolerated`: this holds after every run, and the counter of failures is that
  of the notifications of other nodes.
-/

namespace Clearance

namespace WorkflowStore

/-- The node belongs to an instance that was committed. -/
def Hosts (s : WorkflowStore) (id : NodeId) : Prop :=
  ∃ i x ids, s.instances.get? i = some x ∧ s.members.get? i = some ids ∧ id ∈ ids

theorem Sound.hosts_iff {s : WorkflowStore} (h : s.Sound) {id : NodeId} :
    s.Hosts id ↔ ∃ n, s.nodes.get? id = some n := by
  constructor
  · rintro ⟨i, x, ids, -, hids, hid⟩
    obtain ⟨n, hn, -⟩ := h.stored i ids hids id hid
    exact ⟨n, hn⟩
  · rintro ⟨n, hn⟩
    obtain ⟨ids, hids, hid⟩ := h.listed id n hn
    obtain ⟨x, hx, -⟩ := Option.map_eq_some_iff.mp (h.owned id n hn)
    exact ⟨_, x, ids, hx, hids, hid⟩

end WorkflowStore

namespace Workshop

/-! ### What counts as a failure -/

section Failed

/-- How many notifications could not be processed. -/
def failed (w : Workshop) : Nat := w.metrics.count .notificationFailed

variable {w w' : Workshop}

theorem Sends.failed {note? : Option Notification} (h : Sends note? w w') :
    w'.failed = w.failed := by
  rw [Workshop.failed, h.metrics _ rfl]
  cases note? with
  | none => rfl
  | some n =>
      refine Metrics.count_record_ne _ ?_
      split
      · decide
      · decide

theorem coherent_register (hw : w.Coherent) (a : Activation) : (w.register a).Coherent := by
  have hinits := Inits.registers (.nil (w := w)) [a]
  exact (hinits.served (P := fun _ => True) hw fun _ _ => trivial).coherent hw

theorem failed_register (hw : w.Coherent) (a : Activation) : (w.register a).failed = w.failed := by
  have hs := (init_reports hw {} a).sends.failed
  rw [register]
  rcases hgo : (init {} a).go w with ⟨_ | _, w'⟩
  · rw [hgo] at hs
    exact (Metrics.count_record_ne _ (by decide)).trans hs
  · rw [hgo] at hs
    exact hs

theorem failed_registers (hw : w.Coherent) (as : List Activation) :
    (as.foldl register w).failed = w.failed := by
  induction as generalizing w with
  | nil => rfl
  | cons a rest ih => exact (ih (coherent_register hw a)).trans (failed_register hw a)

theorem failed_initAll (hw : w.Coherent) (as : List Activation) :
    ((initAll as).go w).2.failed = w.failed := by
  induction as generalizing w with
  | nil => rfl
  | cons a rest ih =>
      have hs := (init_reports hw {} a).sends.failed
      have hc := (init_serves hw {} a).coherent
      rw [initAll, Act.go_bind]
      rcases hgo : (init {} a).go w with ⟨_ | _, w'⟩
      · rw [hgo] at hs
        exact hs
      · rw [hgo] at hs hc
        exact (ih hc).trans hs

end Failed

end Workshop

namespace Engine

open WorkflowStore Workshop

/-- What is done without knowing of a node before it is unlocked: no task is activated for a locked
node, or was for one that is about to be made, and no notification is handled but those that were
queued.  These may get lost. -/
def Op.Patient (e : Engine) : Op → Prop
  | .create kind d globalContext => ∀ n ∈ (e.drafted kind d globalContext).nodes,
    n.state = .locked → e.workshop.store.records.get? n.id = none
  | .init _ a => ∀ n, e.workflows.nodes.get? a.nodeId = some n → n.state ≠ .locked
  | .notify _ => False
  | _ => True

theorem Op.Patient.queuedOnly {op : Op} {e : Engine} (h : op.Patient e) : op.QueuedOnly := by
  cases op with
  | notify => exact h.elim
  | _ => trivial

theorem Op.Patient.took {op : Op} {e e' : Engine} {note : Notification} (h : op.Patient e)
    (hb : op.Brings note e e') : Took note e e' :=
  h.queuedOnly.took hb

/-! ### What every operation keeps -/

/-- Locked nodes are untouched and terminal ones closed, and what is queued is pending. -/
structure Tolerant (e : Engine) : Prop where
  steady : e.Steady
  pending : ∀ id, e.workshop.Pending id
  locked : ∀ id n, e.workflows.nodes.get? id = some n → n.state = .locked →
    e.workshop.Untouched id
  terminal : ∀ id n, e.workflows.nodes.get? id = some n → n.state.isTerminal = true →
    e.workshop.Closed id

theorem tolerant_ofCapacity (containers notifications : Nat) :
    (ofCapacity containers notifications).Tolerant where
  steady := steady_ofCapacity containers notifications
  pending _ := pending_of_silent rfl
  locked _ _ h := nomatch h
  terminal _ _ h := nomatch h

section Effects

variable {e e₁ e' : Engine} {op : Op} {note : Notification} {n : WorkflowNode}

/-- A node takes the notification that is taken of it. -/
theorem Tolerant.takes (h : e.Tolerant) (ht : Took note e e₁)
    (hn : e.workflows.nodes.get? note.nodeId = some n) :
    n.state ≠ .locked ∧ ∃ (l : Lifecycle) (m : WorkflowNode), note.lifecycle = some l.text ∧
      l ≠ .initialized ∧ e.Takes note n m ∧ m.state = .ofLifecycle l ∧
      (l.isTerminal = true → e₁.workshop.Closed note.nodeId) := by
  obtain ⟨l, hl, hstart, hclosed, -⟩ := ht.pending_self (h.pending _)
  have hlocked : n.state ≠ .locked :=
    fun hs => ht.ne_of_silent (h.locked _ n hn hs).silent rfl
  have hopen : n.state.isTerminal = false := by
    rw [← Bool.not_eq_true]
    intro hs
    exact ht.ne_of_silent (h.terminal _ n hn hs).silent rfl
  have htake := n.take?_of_open hlocked hopen hl hstart
  exact ⟨hlocked, l, _, hl, hstart, .of_found h.steady.sound hn htake, rfl, hclosed⟩

/-- What is queued stays pending, unless notifications come from outside. -/
theorem Effect.pending (he : Effect e op e') (hop : op.QueuedOnly)
    (h : ∀ id, e.workshop.Pending id) (id : NodeId) : e'.workshop.Pending id := by
  cases he with
  | created k _ => exact (h id).served k.workshop
  | uncreated _ hw => exact (h id).served hw
  | activated k => exact (h id).serves k
  | served k _ => exact (h id).serves k
  | advanced hb _ k => exact ((hop.took hb).pending h id).served k.workshop
  | refused hb _ _ hw => exact ((hop.took hb).pending h id).served hw
  | idle => exact h id
  | outside k hq => exact (h id).of_eq (by rw [k.records]) (by rw [queuedFor, queuedFor, hq])
  | discarded k hq => exact pending_of_silent (by rw [queuedFor, hq]; rfl)

/-- A task whose node is locked in the end is not touched. -/
theorem Effect.untouched (he : Effect e op e') (hop : op.Patient e) {id : NodeId}
    (hn : e'.workflows.nodes.get? id = some n) (hl : n.state = .locked)
    (h : e.workshop.Untouched id) : e'.workshop.Untouched id := by
  cases he with
  | created k _ =>
      refine h.served k.workshop ?_
      rintro ⟨m, hm, hid, hml⟩
      obtain rfl := Option.some.inj (hn.symm.trans (k.get?_eq_some.mpr (.inl ⟨hm, hid⟩)))
      exact hml hl
  | uncreated hs hw =>
      rw [hs.get?_eq] at hn
      refine h.served hw fun hno => ?_
      cases hno.symm.trans hn
  | @activated _ a _ k =>
      have hid : id ≠ a.nodeId := by
        rintro rfl
        exact hop n hn hl
      exact h.of_eq (k.elsewhere id hid) (k.queuedFor_ne hid)
  | served k habsent => exact h.serves k habsent
  | advanced hb _ k =>
      refine ((hop.took hb).untouched h).served k.workshop ?_
      rintro ⟨y, hy, hyl⟩
      obtain rfl := Option.some.inj (hn.symm.trans hy)
      exact hyl hl
  | refused hb _ _ hw => exact ((hop.took hb).untouched h).served hw fun hf => hf
  | idle => exact h
  | outside k hq => exact h.of_eq (by rw [k.records]) (by rw [queuedFor, queuedFor, hq])
  | @discarded w k hq =>
      have hr : w.store.records.get? id = e.workshop.store.records.get? id := by rw [k.records]
      exact ⟨hr.trans h.absent, by rw [queuedFor, hq]; rfl⟩

/-- Where a node comes from that is found after an operation. -/
inductive Origin (e : Engine) (id : NodeId) (n : WorkflowNode) : Op → Engine → Prop
  | kept {op : Op} {e' : Engine} (h : e.workflows.nodes.get? id = some n) : Origin e id n op e'
  | ready {op : Op} {e' : Engine} (h : n.state = .ready) : Origin e id n op e'
  | drafted {kind : InstanceKind} {d : WorkflowDefinition} {globalContext : Context} {e' : Engine}
      (h : n ∈ (e.drafted kind d globalContext).nodes) (hid : n.id = id) (hl : n.state = .locked) :
      Origin e id n (.create kind d globalContext) e'
  | advanced {op : Op} {note : Notification} {e₁ e' : Engine} {x : WorkflowNode} (hid : id = n.id)
      (hb : op.Brings note e e₁) (ht : e.Takes note x n) (k : Advanced n e₁ e') :
      Origin e id n op e'

/-- A node that is found in the end was found before, or is ready or new, or took a notification. -/
theorem Effect.origin (he : Effect e op e') {id : NodeId}
    (hn : e'.workflows.nodes.get? id = some n) : Origin e id n op e' := by
  cases he with
  | created k hd =>
      rcases k.get?_eq_some.mp hn with ⟨hmem, hid⟩ | hold
      · have hstate := k.well.state n hmem
        split at hstate
        · exact .ready hstate
        · exact .drafted (hd ▸ hmem) hid hstate
      · exact .kept hold
  | @advanced _ _ _ _ _ m hb ht k =>
      have hlook := (k.workflows.nodes id).symm.trans hn
      rw [hb.rest.1] at hlook
      rcases Lookup.of_advance hlook with ⟨rfl, rfl⟩ | ⟨x, -, hx, ⟨rfl, -⟩ | ⟨rfl, -⟩⟩
      · exact .advanced rfl hb ht k
      · exact .kept hx
      · exact .ready rfl
  | uncreated hs _ => exact .kept (hs.get?_eq ▸ hn)
  | refused _ _ hs _ => exact .kept (hs.get?_eq ▸ hn)
  | activated _ => exact .kept hn
  | served _ _ => exact .kept hn
  | idle => exact .kept hn
  | outside _ _ => exact .kept hn
  | discarded _ _ => exact .kept hn

/-- The task of a node that is locked in the end is one that was not touched before. -/
theorem Tolerant.untouched_before (h : e.Tolerant) (hop : op.Patient e) (he : Effect e op e')
    {id : NodeId} (hn : e'.workflows.nodes.get? id = some n) (hl : n.state = .locked) :
    e.workshop.Untouched id := by
  cases he.origin hn with
  | kept hold => exact h.locked id n hold hl
  | ready hready => cases hl.symm.trans hready
  | drafted hmem hid _ =>
      rw [← hid]
      exact untouched_of_absent h.steady.coherent (hop n hmem hl)
  | advanced _ hb ht _ =>
      obtain ⟨hlocked, -⟩ := h.takes (hop.took hb) (ht.node ▸ ht.found)
      exact absurd hl (ht.onward.not_locked hlocked)

theorem Effect.closed (he : Effect e op e') (hop : op.QueuedOnly) {id : NodeId}
    (h : e.workshop.Closed id) : e'.workshop.Closed id := by
  cases he with
  | created k _ => exact h.served k.workshop
  | uncreated _ hw => exact h.served hw
  | activated k => exact h.serves k
  | served k _ => exact h.serves k
  | advanced hb _ k => exact ((hop.took hb).closed h).served k.workshop
  | refused hb _ _ hw => exact ((hop.took hb).closed h).served hw
  | idle => exact h
  | outside k hq => exact h.of_eq (by rw [k.records]) (by rw [queuedFor, queuedFor, hq])
  | @discarded w k hq =>
      have hst : w.standing id = e.workshop.standing id := standing_congr (by rw [k.records])
      exact ⟨by rw [queuedFor, hq]; rfl, hst ▸ h.ended⟩

/-- A node comes to its end by the last notification of its task. -/
theorem Tolerant.terminal_effect (h : e.Tolerant) (hop : op.Patient e) (he : Effect e op e')
    {id : NodeId} (hn : e'.workflows.nodes.get? id = some n) (ht : n.state.isTerminal = true) :
    e'.workshop.Closed id := by
  cases he.origin hn with
  | kept hold => exact he.closed hop.queuedOnly (h.terminal id n hold ht)
  | ready hready =>
      rw [hready] at ht
      cases ht
  | drafted _ _ hl =>
      rw [hl] at ht
      cases ht
  | advanced hid hb hk k =>
      obtain ⟨-, l, m, -, -, hm, hstate, hclosed⟩ := h.takes (hop.took hb) (hk.node ▸ hk.found)
      obtain rfl := Option.some.inj (hk.taken.symm.trans hm.taken)
      rw [hstate, NodeState.isTerminal_ofLifecycle] at ht
      rw [hid, ← hk.node]
      exact (hclosed ht).served k.workshop

/-- Every patient operation leaves a tolerant engine tolerant. -/
theorem Tolerant.effect (h : e.Tolerant) (hop : op.Patient e) (he : Effect e op e') :
    e'.Tolerant where
  steady := h.steady.effect he
  pending := he.pending hop.queuedOnly h.pending
  locked _ _ hn hl := he.untouched hop hn hl (h.untouched_before hop he hn hl)
  terminal _ _ hn ht := h.terminal_effect hop he hn ht

end Effects

/-! ### Handling -/

section Handling

variable {e e₁ : Engine} {note : Notification} {n : WorkflowNode}

/-- What is taken of a node that is there is carried out, and the node comes to where its task was
when the notification was sent. -/
theorem Tolerant.handles (h : e.Tolerant) (ht : Took note e e₁)
    (hn : e.workflows.nodes.get? note.nodeId = some n) :
    ∃ l : Lifecycle, note.lifecycle = some l.text ∧ l ≠ .initialized ∧
      ∃ p e', (handle note).go e₁ = (.ok p, e') ∧ p.nodeId = note.nodeId ∧
        p.state = .ofLifecycle l ∧
        ∃ n', e'.workflows.nodes.get? note.nodeId = some n' ∧ n'.state = .ofLifecycle l := by
  obtain ⟨-, l, m, hl, hstart, htakes, hstate, -⟩ := h.takes ht hn
  have hop : Op.deliver.Brings note e e₁ := ht
  have h₁ := h.steady.brings hop
  have hfound : e₁.Takes note n m := htakes.of_nodes (by rw [hop.rest.1])
  obtain ⟨x, calls, e', -, hgo, hm⟩ := hfound.carried h₁
  exact ⟨l, hl, hstart, _, e', hgo, htakes.node.symm, hstate, m, hm, hstate⟩

/-- What is taken of any other node is refused. -/
theorem Tolerant.refuses (h : e.Tolerant) (ht : Took note e e₁)
    (hn : e.workflows.nodes.get? note.nodeId = none) :
    ∃ calls, (handle note).go e₁ = (.error (.noNode note.nodeId), e₁.asked calls) := by
  obtain ⟨l, hl, -⟩ := ht.pending_self (h.pending _)
  have hop : Op.deliver.Brings note e e₁ := ht
  have h₁ := h.steady.brings hop
  have hn₁ : e₁.workflows.nodes.get? note.nodeId = none := by rw [hop.rest.1, hn]
  refine handle_refused h₁.sound h₁.unfaulted (.noNode (fun text htext => ⟨l, ?_⟩) hn₁)
  exact Option.some.inj (hl.symm.trans htext)

end Handling

/-! ### The counter of failures -/

/-- The notification that an operation takes of a node that is there in no instance, if it does. -/
def strays (e : Engine) : Op → List Notification
  | .deliver => e.receive.1.toList.filter fun note => !e.workflows.nodes.contains note.nodeId
  | _ => []

theorem failed_settled (e : Engine) (note : Notification) (m : WorkflowNode)
    (x : WorkflowInstance) (calls : Nat) :
    (e.settled note m x calls).workshop.failed = e.workshop.failed :=
  rfl

theorem failed_process {e e' : Engine} {note : Notification} {r : Except Failure Progress}
    (h : (handle note).go e = (r, e')) :
    ((process note).go e).2.workshop.failed =
      e'.workshop.failed + if .notificationFailed = processed r then 1 else 0 := by
  rw [process_go, h]
  exact Metrics.count_record _ _ _

/-- The consumer counts a failure for a notification of a node that is not there, and no other. -/
theorem Tolerant.failed_deliver {e : Engine} (h : e.Tolerant) :
    (Op.deliver.perform e).2.workshop.failed = e.workshop.failed + (e.strays .deliver).length := by
  rcases receive_eq e with ⟨-, he⟩ | ⟨note, e₁, ht, he⟩
  · rw [Op.perform, strays, he]
    rfl
  have hop : Op.deliver.Brings note e e₁ := ht
  have h₁ := h.steady.brings hop
  have hmet : e₁.workshop.failed = e.workshop.failed := by
    rw [Workshop.failed, Workshop.failed, hop.rest.2.1.metrics]
  have hperform : (Op.deliver.perform e).2 = ((process note).go e₁).2 := by rw [Op.perform, he]
  have hstrays : e.strays .deliver = [note].filter fun note =>
      !e.workflows.nodes.contains note.nodeId := by
    rw [strays, he]
    rfl
  rw [hperform, hstrays, ← hmet]
  cases hn : e.workflows.nodes.get? note.nodeId with
  | none =>
      obtain ⟨calls, hgo⟩ := h.refuses ht hn
      rw [failed_process hgo, List.filter_cons_of_pos (by rw [Table.contains_eq_false.mpr hn]; rfl)]
      rfl
  | some n =>
      obtain ⟨-, -, m, -, -, htakes, -, -⟩ := h.takes ht hn
      have hfound : e₁.Takes note n m := htakes.of_nodes (by rw [hop.rest.1])
      obtain ⟨x, calls, -, -, hgo⟩ := handle_taken h₁.sound h₁.unfaulted hfound
      rw [failed_process hgo,
        List.filter_cons_of_neg (by rw [Table.contains_iff.mpr ⟨n, hn⟩]; decide)]
      have hw : (e₁.settled note m x calls).workshop.Coherent :=
        h₁.coherent.of_eq rfl rfl (fun _ _ hc => hc) fun _ hq => hq
      exact (failed_registers hw _).trans (failed_settled e₁ note m x calls)

theorem Tolerant.failed_perform {e : Engine} (h : e.Tolerant) {op : Op} (hop : op.Patient e) :
    (op.perform e).2.workshop.failed = e.workshop.failed + (e.strays op).length := by
  have hw := h.steady.coherent
  cases op with
  | create kind d globalContext =>
      have hall := failed_initAll hw (e.drafted kind d globalContext).starts
      obtain ⟨as, hc⟩ := exists_course h.steady (.create kind d globalContext)
      generalize (Op.perform e (.create kind d globalContext)).2 = e' at hc ⊢
      cases hc with
      | invalid _ => rfl
      | conflicting _ _ => rfl
      | aborted _ hd hi =>
          rw [← hd, hi] at hall
          exact hall
      | founded _ hd _ hi =>
          rw [← hd, hi] at hall
          exact hall
      | refused hb _ _ => exact hb.elim
      | carried hb _ _ _ _ => exact hb.elim
      | outside hout => exact hout.elim
  | deliver => exact h.failed_deliver
  | notify _ => exact hop.elim
  | init ctx a => exact (init_reports hw ctx a).sends.failed
  | execute ctx id q => exact (execute_reports hw ctx id q).sends.failed
  | render ctx id => exact (render_reports hw ctx id).sends.failed
  | snapshot id => exact (snapshot_reports hw id).sends.failed
  | outage _ _ => rfl
  | agencies _ _ => rfl
  | close => rfl
  | discard => rfl

/-! ### A whole run -/

/-- Every operation of the run is patient where it comes. -/
def Patiently : Engine → List Op → Prop
  | _, [] => True
  | e, op :: ops => op.Patient e ∧ Patiently (op.perform e).2 ops

/-- The notifications that are taken in the run of nodes that are there in no instance then. -/
def allStrays : Engine → List Op → List Notification
  | _, [] => []
  | e, op :: ops => e.strays op ++ allStrays (op.perform e).2 ops

theorem Tolerant.after {e : Engine} (h : e.Tolerant) {ops : List Op} (hops : e.Patiently ops) :
    (after ops e).Tolerant ∧
      (after ops e).workshop.failed = e.workshop.failed + (e.allStrays ops).length := by
  induction ops generalizing e with
  | nil => exact ⟨h, rfl⟩
  | cons op ops ih =>
      obtain ⟨hop, hrest⟩ := hops
      obtain ⟨hlast, hcount⟩ := ih (h.effect hop (effect_perform h.steady op)) hrest
      refine ⟨hlast, hcount.trans ?_⟩
      rw [h.failed_perform hop, allStrays, List.length_append, Nat.add_assoc]

/-- **Lost notifications.** However many notifications are dropped or lost in a run that is patient,
every one that is taken of a node of an instance is carried out, and the node comes to the state
that it stands for.  One that is taken of any other node is refused and changes nothing, and these
are what the counter of failures counts. -/
theorem notifications_tolerated (containers notifications : Nat) {ops : List Op}
    (hops : (ofCapacity containers notifications).Patiently ops) {e : Engine}
    (he : e = after ops (ofCapacity containers notifications)) :
    (∀ note e₁, e.receive = (some note, e₁) →
      (e.workflows.Hosts note.nodeId →
        ∃ l : Lifecycle, note.lifecycle = some l.text ∧ l ≠ .initialized ∧
          ∃ p e', (handle note).go e₁ = (.ok p, e') ∧ p.nodeId = note.nodeId ∧
            p.state = .ofLifecycle l ∧
            ∃ n, e'.workflows.nodes.get? note.nodeId = some n ∧ n.state = .ofLifecycle l) ∧
      (¬ e.workflows.Hosts note.nodeId →
        ∃ calls, (handle note).go e₁ = (.error (.noNode note.nodeId), e₁.asked calls))) ∧
    (∀ id, e.workflows.Hosts id ↔ e.workflows.nodes.contains id = true) ∧
    e.workshop.metrics.count .notificationFailed =
      ((ofCapacity containers notifications).allStrays ops).length := by
  obtain ⟨h, hcount⟩ := (tolerant_ofCapacity containers notifications).after hops
  rw [← he] at h hcount
  refine ⟨fun note e₁ hreceive => ?_, fun id => ?_, hcount.trans (Nat.zero_add _)⟩
  · have ht := took_of_receive hreceive
    refine ⟨fun hosts => ?_, fun hno => ?_⟩
    · obtain ⟨n, hn⟩ := h.steady.sound.hosts_iff.mp hosts
      exact h.handles ht hn
    · refine h.refuses ht (Option.eq_none_iff_forall_ne_some.mpr fun n hn => ?_)
      exact hno (h.steady.sound.hosts_iff.mpr ⟨n, hn⟩)
  · rw [h.steady.sound.hosts_iff, Table.contains_iff]

/-- A task of no instance is announced first, so that the mailbox is full when the form of a permit
is opened; then the form is submitted. -/
def crowding : List Op :=
  [.init {} ⟨⟨"stray"⟩, ⟨"$0"⟩, ⟨"apply"⟩, .simpleForm, .obj [("formId", .str "F")], {}⟩,
    .create .consignment permit {}, .deliver,
    .execute {} ⟨"$1-apply"⟩ ⟨"submit", .null⟩]

/-- That the form was opened was dropped, and yet its completion is carried out.  Only the
notification of the other task was refused. -/
theorem notifications_tolerated_crowding :
    ∃ note e₁ p e', (after crowding (ofCapacity 1 1)).receive = (some note, e₁) ∧
      note.lifecycle = some "COMPLETED" ∧ (handle note).go e₁ = (.ok p, e') ∧
      (after crowding (ofCapacity 1 1)).workshop.metrics.count .notificationDropped = 1 ∧
      (after crowding (ofCapacity 1 1)).workshop.metrics.count .notificationFailed =
        ((ofCapacity 1 1).allStrays crowding).length := by
  have hfresh :
      let e := after (crowding.take 1) (ofCapacity 1 1)
      ∀ n ∈ (e.drafted .consignment permit {}).nodes, n.state = .locked →
        e.workshop.store.records.get? n.id = none := by
    decide +kernel
  have hstray : ∀ n, (ofCapacity 1 1).workflows.nodes.get? ⟨"stray"⟩ = some n →
      n.state ≠ .locked := by
    intro n hn
    cases hn
  have hops : (ofCapacity 1 1).Patiently crowding := ⟨hstray, hfresh, trivial, trivial, trivial⟩
  obtain ⟨htaken, hhosts, hcount⟩ := notifications_tolerated 1 1 hops rfl
  have hruns :
      let e := after crowding (ofCapacity 1 1)
      e.receive.1.map (fun note => (note.nodeId, note.lifecycle)) =
          some (⟨"$1-apply"⟩, some "COMPLETED") ∧
        e.workflows.nodes.contains ⟨"$1-apply"⟩ = true ∧
        e.workshop.metrics.count .notificationDropped = 1 := by
    simp only [crowding, after, List.foldl_cons, List.foldl_nil, Op.perform,
      createInstance_of_valid permit_valid]
    decide +kernel
  obtain ⟨hnext, hnode, hdropped⟩ := hruns
  rcases hreceive : (after crowding (ofCapacity 1 1)).receive with ⟨_ | note, e₁⟩
  · rw [hreceive] at hnext
    cases hnext
  · rw [hreceive] at hnext
    obtain ⟨hid, hl⟩ := Prod.mk.inj (Option.some.inj hnext)
    have hon := (hhosts note.nodeId).mpr (hid ▸ hnode)
    obtain ⟨l, -, -, p, e', hgo, -⟩ := (htaken note e₁ hreceive).1 hon
    exact ⟨note, e₁, p, e', rfl, hl, hgo, hdropped, hcount⟩

end Engine

end Clearance
