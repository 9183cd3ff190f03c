import Clearance.Proofs.Engine.Course
import Clearance.Proofs.Engine.Gate
import Clearance.Proofs.Engine.Refusal

/-!
# Clearance — Proofs — Engine — How a node leaves the locked state

The scan of the dependents of a completed node is what unlocks nodes.  But a locked node may become
ready, and that is what a notification asks that says that its task is at its start.

* `Engine.Steady.handle_locked`: any other notification leaves a locked node as it is.
* `Engine.Steady.handle_start`: this one makes it ready, and nothing is done for its task.
* `Engine.Unlocks`: the two ways in which an operation unlocks a node.
* `Engine.unlocked_by_scan_or_start`: over any run, there is no third.
-/

namespace Clearance

namespace Engine

open WorkflowStore Workshop

/-! ### A notification of a locked node -/

section Locked

variable {e : Engine} {note : Notification} {n : WorkflowNode}

/-- A notification that does not say that the task is at its start is refused by a locked node. -/
theorem Steady.handle_locked (h : e.Steady) (hn : e.workflows.nodes.get? note.nodeId = some n)
    (hl : n.state = .locked) (hs : note.lifecycle ≠ some Lifecycle.initialized.text) :
    ∃ f calls, (handle note).go e = (.error f, e.asked calls) := by
  have hhandled := handle_handled h.sound h.unfaulted note
  rcases hgo : (handle note).go e with ⟨r, e'⟩
  rw [hgo] at hhandled
  cases hhandled with
  | refused _ => exact ⟨_, _, rfl⟩
  | carried ht _ _ =>
      obtain rfl := Option.some.inj (hn.symm.trans (ht.node ▸ ht.found))
      exact absurd (WorkflowNode.starts_of_take? ht.taken hl).1 hs

/-- A notification that says so makes it ready, and neither unlocks nor activates anything. -/
theorem Steady.handle_start (h : e.Steady) (hn : e.workflows.nodes.get? note.nodeId = some n)
    (hl : n.state = .locked) (hs : note.lifecycle = some Lifecycle.initialized.text) :
    ∃ status e', (handle note).go e = (.ok ⟨note.nodeId, .locked, .ready, [], status⟩, e') ∧
      e'.workshop = e.workshop ∧
      ∃ n', e'.workflows.nodes.get? note.nodeId = some n' ∧ n'.state = .ready := by
  have hlegal : n.state.canAdvanceTo .ready = true := by
    rw [hl]
    rfl
  have ht : e.Takes note n (n.advance .ready note) := .of_found h.sound hn
    (WorkflowNode.take?_eq_some.mpr ⟨_, Notification.asks_eq hs n, hlegal, rfl⟩)
  -- a node that is not completed unlocks no other
  have hnone : e.workflows.unlockedBy (n.advance .ready note) = [] := if_neg (by nofun)
  obtain ⟨x, calls, e', he', hgo, hfound⟩ := ht.carried h
  refine ⟨x.status.after n.terminal .ready, e', hgo.trans (Prod.ext ?_ rfl), ?_, _, hfound, rfl⟩
  · rw [hnone, hl, ht.node]
    rfl
  · rw [he', registrations, hnone, settled, hnone]
    exact congrArg (fun m => { e.workshop with metrics := m }) (Metrics.add_zero _ _)

end Locked

/-! ### An operation that unlocks a node -/

/-- How an operation unlocks a node that was locked. -/
inductive Unlocks (e : Engine) (id : NodeId) : Op → Engine → Prop
  /-- A notification completes another node.  The scan of its dependents finds the node, whose
  dependencies are satisfied then, and it is activated with the others that are found. -/
  | scanned {op : Op} {note : Notification} {e₁ e' : Engine} {n m k : WorkflowNode}
      {x : WorkflowInstance} (hn : e.workflows.nodes.get? id = some k) (hl : k.state = .locked)
      (hb : op.Brings note e e₁) (ht : e.Takes note n m) (hk : k ∈ e.workflows.unlockedBy m)
      (hsat : k.satisfied e'.workflows.nodes.get? = true)
      (hc : Course e op (e.workflows.registrations note m x) e') : Unlocks e id op e'
  /-- A notification of the node itself, from outside, says that its task is at its start. -/
  | forced {note : Notification} {k : WorkflowNode} {e' : Engine}
      (hn : e.workflows.nodes.get? id = some k) (hl : k.state = .locked) (hid : note.nodeId = id)
      (hs : note.lifecycle = some Lifecycle.initialized.text) : Unlocks e id (.notify note) e'

section Unlocking

variable {e e' : Engine} {op : Op} {as : List Activation} {id : NodeId} {n' : WorkflowNode}

/-- A locked node that takes a notification is forced to by one from outside. -/
theorem Takes.forced {note : Notification} {e₁ : Engine} {n m : WorkflowNode}
    (ht : e.Takes note n m) (hb : op.Brings note e e₁) (hl : n.state = .locked)
    (hq : ∀ note ∈ e.workshop.mailbox.queue, note.Announced) : Unlocks e m.id op e' := by
  cases op with
  | deliver =>
      refine absurd hl ((hq note ?_).not_locked ht.taken)
      rw [Took.queue hb]
      exact List.mem_cons_self
  | notify _ =>
      obtain ⟨rfl, -⟩ := hb
      exact .forced ht.found hl ht.node (WorkflowNode.starts_of_take? ht.taken hl).1
  | _ => exact hb.elim

/-- A node with dependencies that is not locked after an operation was not before, or the operation
unlocks it. -/
theorem Course.unlocks (hc : Course e op as e') (h : e.Steady)
    (hq : ∀ note ∈ e.workshop.mailbox.queue, note.Announced)
    (hn' : e'.workflows.nodes.get? id = some n') (hl : n'.state ≠ .locked)
    (hd : n'.dependencies ≠ []) :
    (∃ n, e.workflows.nodes.get? id = some n ∧ n.state ≠ .locked ∧ n.dependencies ≠ []) ∨
      Unlocks e id op e' := by
  have hcourse := hc
  cases hcourse with
  | invalid _ => exact .inl ⟨n', hn', hl, hd⟩
  | conflicting _ _ => exact .inl ⟨n', hn', hl, hd⟩
  | aborted _ _ _ => exact .inl ⟨n', hn', hl, hd⟩
  | idle _ => exact .inl ⟨n', hn', hl, hd⟩
  | outside _ => exact .inl ⟨n', hn', hl, hd⟩
  | refused hb _ hw =>
      rw [hw.workflows, asked, hb.rest.1] at hn'
      exact .inl ⟨n', hn', hl, hd⟩
  | @founded kind d globalContext c _ _ hv hcd hconflict _ =>
      obtain rfl := hcd
      have hwell := e.well_drafted kind globalContext hv
      rcases (get?_commit_eq_some (s := e.workflows.called) hconflict hwell.distinct).mp hn' with
        ⟨hmem, -⟩ | hold
      · -- a new node with dependencies is locked
        exact absurd (hwell.dependencies_of_ready hmem (hwell.ready hmem hl)) hd
      · exact .inl ⟨n', hold, hl, hd⟩
  | @carried _ note n m x e₁ _ calls hb ht hx hid hw =>
      have hlook := hw.get?_settled hb.rest.1 h.sound ht hx hid
      rcases Lookup.of_advance ((hlook id).symm.trans hn') with
        ⟨rfl, rfl⟩ | ⟨k, hne, hk, ⟨rfl, -⟩ | ⟨rfl, hcomp, hopens⟩⟩
      · by_cases hlocked : n.state = .locked
        · exact .inr (ht.forced hb hlocked hq)
        · obtain ⟨_, _, _, rfl⟩ := ht.onward.kin
          exact .inl ⟨n, ht.found, hlocked, hd⟩
      · exact .inl ⟨_, hk, hl, hd⟩
      · obtain ⟨hlocked, -, hsat⟩ := WorkflowNode.opensOn_iff.mp hopens
        obtain rfl := h.sound.keyed id k hk
        have hput : Lookup.put e.workflows.nodes.get? m k.id = some k := (if_neg hne).trans hk
        have hmem := (h.sound.mem_unlockedBy ht.found ht.onward (ht.fit h.sound)).mpr
          ⟨hcomp, hput, hopens⟩
        refine .inr (.scanned hk hlocked hb ht hmem ?_ hc)
        rw [show e'.workflows.nodes.get? = _ from funext hlook, satisfied_advance]
        exact hsat

end Unlocking

/-! ### A whole run -/

/-- **How nodes are unlocked.** In any engine that is reached, with whatever notifications, one of a
locked node is refused and changes nothing, unless it says that the task of the node is at its start;
then the node is ready, and nothing is done for its task.  A node with dependencies, which is locked
at first, is not locked any more only if some operation unlocked it, by the scan of the dependents or
by such a notification from outside. -/
theorem unlocked_by_scan_or_start {containers notifications : Nat} {e : Engine}
    (h : Reaches (fun _ _ => True) (ofCapacity containers notifications) e) {id : NodeId}
    {n : WorkflowNode} (hn : e.workflows.nodes.get? id = some n) :
    (n.state = .locked → ∀ note : Notification, note.nodeId = id →
      (note.lifecycle ≠ some Lifecycle.initialized.text →
        ∃ f calls, (handle note).go e = (.error f, e.asked calls)) ∧
      (note.lifecycle = some Lifecycle.initialized.text →
        ∃ status e', (handle note).go e = (.ok ⟨id, .locked, .ready, [], status⟩, e') ∧
          e'.workshop = e.workshop ∧
          ∃ n', e'.workflows.nodes.get? id = some n' ∧ n'.state = .ready)) ∧
    (n.state ≠ .locked → n.dependencies ≠ [] →
      ∃ e₁ op, Reaches (fun _ _ => True) (ofCapacity containers notifications) e₁ ∧
        Unlocks e₁ id op (op.perform e₁).2 ∧
        Reaches (fun _ _ => True) (op.perform e₁).2 e) := by
  have hall : ∀ {e}, Reaches (fun _ _ => True) (ofCapacity containers notifications) e →
      e.Steady ∧ ∀ note ∈ e.workshop.mailbox.queue, note.Announced := by
    intro e hr
    have hstart := steady_ofCapacity containers notifications
    exact ⟨hstart.reaches hr,
      hstart.invariant hr (fun _ hq => nomatch hq) fun _ _ he hq => he.announced hq⟩
  refine ⟨fun hl note hid => ?_, fun hl hd => ?_⟩
  · obtain ⟨hsteady, -⟩ := hall h
    subst hid
    exact ⟨hsteady.handle_locked hn hl, hsteady.handle_start hn hl⟩
  · induction h generalizing n with
    | refl => cases hn
    | @step e₁ hr op _ ih =>
        obtain ⟨hsteady, hq⟩ := hall hr
        obtain ⟨as, hc⟩ := exists_course hsteady op
        rcases hc.unlocks hsteady hq hn hl hd with ⟨k, hk, hlk, hdk⟩ | hunlocks
        · obtain ⟨e₂, op₂, hr₂, hu, hrest⟩ := ih hk hlk hdk
          exact ⟨e₂, op₂, hr₂, hu, .step hrest op trivial⟩
        · exact ⟨e₁, op, hr, hunlocks, .refl⟩

/-- The form of a permit is submitted and taken note of. -/
def submitted : Engine :=
  after [.create .consignment permit {}, .deliver, .execute {} ⟨"$1-apply"⟩ ⟨"submit", .null⟩,
    .deliver] (ofCapacity 1 1)

/-- While the form is open, the wait for the payment refuses to be completed.  Once the form is
submitted the wait is ready, so an operation has unlocked it. -/
theorem unlocked_by_scan_or_start_submitted :
    (∃ f calls, (handle paid).go opened = (.error f, opened.asked calls)) ∧
      ∃ e₁ op, Reaches (fun _ _ => True) (ofCapacity 1 1) e₁ ∧
        Unlocks e₁ ⟨"$1-pay"⟩ op (op.perform e₁).2 ∧
        Reaches (fun _ _ => True) (op.perform e₁).2 submitted := by
  have hrun :
      (opened.workflows.nodes.get? ⟨"$1-pay"⟩).map (·.state) = some .locked ∧
        (submitted.workflows.nodes.get? ⟨"$1-pay"⟩).map (fun n => (n.state, n.dependencies)) =
          some (.ready, [⟨⟨"$1-apply"⟩, ⟨"apply"⟩, none⟩]) := by
    simp only [opened, submitted, after, List.foldl_cons, List.foldl_nil, Op.perform,
      createInstance_of_valid permit_valid]
    decide +kernel
  obtain ⟨hwaits, hready⟩ := hrun
  obtain ⟨n, hn, hlocked⟩ := Option.map_eq_some_iff.mp hwaits
  obtain ⟨k, hk, hshows⟩ := Option.map_eq_some_iff.mp hready
  obtain ⟨hstate, hdeps⟩ := Prod.mk.inj hshows
  have hopened : Reaches (fun _ _ => True) (ofCapacity 1 1) opened :=
    .step (.step .refl _ trivial) _ trivial
  have hsubmitted : Reaches (fun _ _ => True) (ofCapacity 1 1) submitted :=
    .step (.step hopened _ trivial) _ trivial
  obtain ⟨hnote, -⟩ := unlocked_by_scan_or_start hopened hn
  obtain ⟨-, hunlocked⟩ := unlocked_by_scan_or_start hsubmitted hk
  refine ⟨(hnote hlocked paid rfl).1 (by decide), hunlocked ?_ ?_⟩
  · rw [hstate]
    decide
  · rw [hdeps]
    exact List.cons_ne_nil _ _

/-- The news that the wait for a payment is at its start, for the first instance that an engine
makes. -/
def starting : Notification := ⟨⟨"$1-pay"⟩, some "INITIALIZED", none, none, {}⟩

/-- A permit is made and this is the first notification.  The wait for the payment was locked and is
ready then, with no task and with its dependency not satisfied. -/
theorem start_unlocks_unsatisfied :
    ∃ e e' n n', e = after [.create .consignment permit {}] (ofCapacity 1 1) ∧
      e' = ((handle starting).go e).2 ∧
      e.workflows.nodes.get? starting.nodeId = some n ∧ n.state = .locked ∧
      e'.workflows.nodes.get? starting.nodeId = some n' ∧ n'.state = .ready ∧
      n'.satisfied e'.workflows.nodes.get? = false ∧
      e'.workshop.store.records.get? starting.nodeId = none := by
  have hrun :
      let e := after [.create .consignment permit {}] (ofCapacity 1 1)
      let e' := ((handle starting).go e).2
      (e.workflows.nodes.get? starting.nodeId).map (·.state) = some .locked ∧
        (e'.workflows.nodes.get? starting.nodeId).map
          (fun n => (n.state, n.satisfied e'.workflows.nodes.get?)) = some (.ready, false) ∧
        e'.workshop.store.records.get? starting.nodeId = none := by
    simp only [after, List.foldl_cons, List.foldl_nil, Op.perform,
      createInstance_of_valid permit_valid]
    decide +kernel
  obtain ⟨hbefore, hafter, hnone⟩ := hrun
  obtain ⟨n, hn, hl⟩ := Option.map_eq_some_iff.mp hbefore
  obtain ⟨n', hn', hshows⟩ := Option.map_eq_some_iff.mp hafter
  obtain ⟨hready, hsat⟩ := Prod.mk.inj hshows
  exact ⟨_, _, n, n', rfl, rfl, hn, hl, hn', hready, hsat, hnone⟩

end Engine

end Clearance
