import Clearance.Proofs.Engine.Founding
import Clearance.Proofs.Engine.Transparency
import Clearance.Proofs.Task.Restart

/-!
# Clearance — Proofs — Engine — Activations that are made again

Once a task has left the start, the activations of its node may be left out of a run, and nobody can
tell.

* `Engine.Op.Inits`: the operations that are left out.
* `Engine.log`: what the callers and the agencies see of a run, one operation after the other.
* `Engine.Twins.skip`: an engine is not told from itself after such an operation.
* `Engine.twins_withoutInits`: nor is it after a run without them.
* `Engine.reinit_idempotent`: what that comes to for every run.
-/

namespace Clearance

namespace Engine

open Workshop

/-- An activation of this node from outside the workflow layer. -/
def Op.Inits (id : NodeId) : Op → Prop
  | .init _ a => a.nodeId = id
  | _ => False

instance (id : NodeId) (op : Op) : Decidable (op.Inits id) := by
  unfold Op.Inits
  split <;> infer_instance

/-- Operations without the activations of a node. -/
def withoutInits (id : NodeId) (ops : List Op) : List Op := ops.filter fun op => ¬ op.Inits id

/-- What is seen of an operation: its answer, and the calls to agencies it made. -/
structure Entry where
  op : Op
  answer : Answer
  calls : List AgencyCall

/-- What is seen of operations one after the other. -/
def log : List Op → Engine → List Entry
  | [], _ => []
  | op :: rest, e =>
    ⟨op, (op.perform e).1,
      (op.perform e).2.workshop.agency.journal.drop e.workshop.agency.journal.length⟩ ::
      log rest (op.perform e).2

/-- None of the operations shows a form that has to be fetched for that. -/
def Unfetching : List Op → Engine → Prop
  | [], _ => True
  | op :: rest, e => ¬ op.Fetches e ∧ Unfetching rest (op.perform e).2

variable {e f : Engine} {id : NodeId} {op : Op}

/-! ### Started tasks -/

/-- No operation takes a task back to the start. -/
theorem Effect.started {e' : Engine} (he : Effect e op e') (h : e.workshop.Started id) :
    e'.workshop.Started id := by
  -- what handles a notification begins where it is out of the mailbox
  have hbrings : ∀ {note e₁}, op.Brings note e e₁ → e₁.workshop.Started id := fun hop =>
    h.of_eq (congrArg (·.get? id) hop.rest.2.1.records)
  cases he with
  | created k => exact k.workshop.started h
  | uncreated _ hw => exact hw.started h
  | activated k => exact k.started h
  | served k _ => exact k.started h
  | advanced hop _ k => exact k.workshop.started (hbrings hop)
  | refused hop _ _ hw => exact hw.started (hbrings hop)
  | idle => exact h
  | outside k _ => exact h.of_eq (congrArg (·.get? id) k.records)
  | discarded k _ => exact h.of_eq (congrArg (·.get? id) k.records)

/-- The activation of a started task does nothing that is seen. -/
theorem Op.Inits.perform (hop : op.Inits id) (hw : e.workshop.Coherent)
    (h : e.workshop.Started id) :
    ∃ w, (op.perform e).2 = { e with workshop := w } ∧ Kept e.workshop w := by
  cases op with
  | init ctx a =>
      obtain rfl : a.nodeId = id := hop
      obtain ⟨r, hr, hs⟩ := h.get?
      refine ⟨_, rfl, (Act.ends_state (P := Kept e.workshop)).mp ?_⟩
      exact (init_started hw hr hs ctx).mono (fun _ _ k => k.1) fun _ _ k => k.1
  | _ => exact hop.elim

/-! ### Two runs -/

/-- The one engine is not told from the other after an activation that only the one has seen. -/
theorem Twins.skip (h : Twins e f) (hop : op.Inits id) (hs : e.workshop.Started id) :
    Twins (op.perform e).2 f ∧
      (op.perform e).2.workshop.agency.journal = e.workshop.agency.journal := by
  have hw := h.workshop
  obtain ⟨w, hperform, hkept⟩ := hop.perform hw.left hs
  rw [hperform]
  refine ⟨?_, congrArg Agency.journal hkept.agency⟩
  have hpair : Pair e.workshop.agency.journal f.workshop.agency.journal
      { e with workshop := w } f :=
    ⟨h.workflows, h.made, hw.toTwin.kept hkept (.refl hw.right), hkept.coherent, hw.right⟩
  exact hpair.twins

/-- A run without the activations of a started task leaves the engine as the run with them does, and
if no form has to be fetched they are all that is missing from what is seen of it. -/
theorem twins_withoutInits {rest : List Op} (h : Twins e f) (hst : e.Steady)
    (hs : e.workshop.Started id) (hrest : ∀ o ∈ rest, o.LeavesStore) :
    Twins (after rest e) (after (withoutInits id rest) f) ∧
      (Unfetching rest e →
        log (withoutInits id rest) f = (log rest e).filter (fun s => ¬ s.op.Inits id) ∧
        (e.workshop.agency.journal = f.workshop.agency.journal →
          (after rest e).workshop.agency.journal =
            (after (withoutInits id rest) f).workshop.agency.journal)) := by
  induction rest generalizing e f with
  | nil => exact ⟨h, fun _ => ⟨rfl, fun hj => hj⟩⟩
  | cons op rest ih =>
      obtain ⟨hop, hrest⟩ := List.forall_mem_cons.mp hrest
      have heff := effect_perform hst op
      have hst' := hst.effect heff
      have hs' := heff.started hs
      by_cases hi : op.Inits id
      · have hskip : withoutInits id (op :: rest) = withoutInits id rest :=
          List.filter_cons_of_neg (by simpa using hi)
        obtain ⟨htwins, hjournal⟩ := h.skip hi hs
        obtain ⟨hend, hlog⟩ := ih htwins hst' hs' hrest
        rw [hskip, log, List.filter_cons_of_neg (by simpa using hi)]
        refine ⟨hend, fun hf => ?_⟩
        obtain ⟨hsame, hcalls⟩ := hlog hf.2
        exact ⟨hsame, fun hj => hcalls (hjournal.trans hj)⟩
      · have hkeep : withoutInits id (op :: rest) = op :: withoutInits id rest :=
          List.filter_cons_of_pos (by simpa using hi)
        obtain ⟨htwins, hsame⟩ := h.perform hop
        obtain ⟨hend, hlog⟩ := ih htwins hst' hs' hrest
        rw [hkeep, log, log, List.filter_cons_of_pos (by simpa using hi)]
        refine ⟨hend, fun hf => ?_⟩
        obtain ⟨hanswer, hpair⟩ := hsame hf.1
        obtain ⟨made, hmade, hmade'⟩ := hpair.workshop.agency.journal
        obtain ⟨hrestlog, hcalls⟩ := hlog hf.2
        refine ⟨?_, fun hj => hcalls (by rw [hmade, hmade', hj])⟩
        rw [hrestlog, hanswer, hmade, hmade', List.drop_left, List.drop_left]

/-! ### Runs -/

theorem Steady.twins (h : e.Steady) (hup : e.workshop.store.Up) : Twins e e :=
  ⟨rfl, rfl, ⟨⟨rfl, hup, hup⟩, rfl, (Agency.Like.refl _).twin, rfl, fun _ _ => rfl⟩,
    h.coherent, h.coherent⟩

/-- Without the activations of a node, the operations from `e` on come to the same: to the same
tasks, workflows and notifications and, except for those of the cache, counters.  If no form has to
be fetched, they also make the same calls, and each of them shows the same. -/
structure Erases (id : NodeId) (ops : List Op) (e : Engine) : Prop where
  records : (after (withoutInits id ops) e).workshop.store.records =
    (after ops e).workshop.store.records
  workflows : (after (withoutInits id ops) e).workflows = (after ops e).workflows
  mailbox : (after (withoutInits id ops) e).workshop.mailbox = (after ops e).workshop.mailbox
  counters : ∀ k, k.ofCache = false →
    (after (withoutInits id ops) e).workshop.metrics.count k =
      (after ops e).workshop.metrics.count k
  seen : Unfetching ops e →
    log (withoutInits id ops) e = (log ops e).filter fun s => ¬ s.op.Inits id
  calls : Unfetching ops e →
    (after (withoutInits id ops) e).workshop.agency.journal = (after ops e).workshop.agency.journal

theorem Steady.erases (h : e.Steady) (hup : e.workshop.store.Up) (hs : e.workshop.Started id)
    {ops : List Op} (hops : ∀ o ∈ ops, o.LeavesStore) : Erases id ops e := by
  obtain ⟨hend, hlog⟩ := twins_withoutInits (h.twins hup) h hs hops
  exact ⟨hend.workshop.store.records, hend.workflows, hend.workshop.mailbox,
    hend.workshop.metrics, fun hf => (hlog hf).1, fun hf => ((hlog hf).2 rfl).symm⟩

/-- **Activations made again.** After any run of the tasks, the activation of a node whose task has
left the start leaves the records as they are, sends nothing, calls no agency and is answered by no
new state, whatever it asks for; only empty ids and a store that fails keep it from being answered.
After any run of the engine, an activation that is answered by a new state starts the task, and from
then on all activations of its node may be left out of what follows. -/
theorem reinit_idempotent (containers notifications : Nat) :
    (∀ log w, Runs (Workshop.ofCapacity containers notifications) log w →
      ∀ ctx a r, w.store.records.get? a.nodeId = some r → r.state ≠ .initialized →
        ((Workshop.init ctx a).go w).2.store.records = w.store.records ∧
        Sends none w ((Workshop.init ctx a).go w).2 ∧
        ((Workshop.init ctx a).go w).2.agency = w.agency ∧
        (∀ x, ((Workshop.init ctx a).go w).1 = .ok x → x = .unchanged .done) ∧
        (w.store.Up → a.nodeId.text ≠ "" → a.instanceId.text ≠ "" →
          ((Workshop.init ctx a).go w).1 = .ok (.unchanged .done))) ∧
    ∀ ops,
      (∀ ctx a x s,
        ((Op.init ctx a).perform (after ops (ofCapacity containers notifications))).1 =
          .response (.ok x) → x.newState = some s →
        (after (ops ++ [.init ctx a]) (ofCapacity containers notifications)).workshop.Started
          a.nodeId) ∧
      ∀ id, (after ops (ofCapacity containers notifications)).workshop.Started id →
        (after ops (ofCapacity containers notifications)).workshop.store.Up →
        ∀ rest, (∀ o ∈ rest, o.LeavesStore) →
          Erases id rest (after ops (ofCapacity containers notifications)) := by
  refine ⟨fun log w hrun ctx a r hr hs => ?_, fun ops => ⟨fun ctx a x s hx hnew => ?_, ?_⟩⟩
  · have hw := hrun.coherent (Workshop.coherent_ofCapacity containers notifications)
    have hends := init_started hw hr hs ctx
    rcases hgo : (Workshop.init ctx a).go w with ⟨f | x, w'⟩
    · obtain ⟨hkept, hwhy⟩ := (Act.ends_iff.mp hends).2 f w' hgo
      refine ⟨hkept.records, ⟨hkept.mailbox, hkept.metrics⟩, hkept.agency, nofun,
        fun hup hnode hinst => ?_⟩
      exact (hwhy.elim hup.not_failedBy fun hno => hno.elim hnode hinst).elim
    · obtain ⟨hkept, rfl⟩ := (Act.ends_iff.mp hends).1 x w' hgo
      refine ⟨hkept.records, ⟨hkept.mailbox, hkept.metrics⟩, hkept.agency, fun y hy => ?_,
        fun _ _ _ => rfl⟩
      exact (Except.ok.inj hy).symm
  · have hst := (steady_ofCapacity containers notifications).after ops
    rw [after_append]
    rcases hgo : (Workshop.init ctx a).go (after ops (ofCapacity containers notifications)).workshop
      with ⟨f | y, w'⟩
    · rw [Op.perform, onWorkshop, Act.go_on hgo] at hx
      cases hx
    · rw [Op.perform, onWorkshop, Act.go_on hgo] at hx
      cases hx
      rw [Op.perform, onWorkshop, Act.go_on hgo]
      exact started_of_init hst.coherent hgo hnew
  · intro id hs hup rest hrest
    exact ((steady_ofCapacity containers notifications).after ops).erases hup hs hrest

/-- The activation of a form. -/
def applying : Activation :=
  ⟨⟨"$1-apply"⟩, ⟨"$1"⟩, ⟨"apply"⟩, .simpleForm, .obj [("formId", .str "F")], {}⟩

/-- An activation of the node of the form that asks for something else. -/
def misdirected : Activation := ⟨⟨"$1-apply"⟩, ⟨"$2"⟩, ⟨"pay"⟩, .waitForEvent, .null, {}⟩

/-- The form is submitted, and its node is activated again before and after. -/
def reopening : List Op :=
  [.init { cancelled := true } misdirected, .execute {} ⟨"$1-apply"⟩ ⟨"submit", .null⟩,
    .init {} misdirected]

/-- An open form is not opened again, and whether somebody tries to does not show when it is
submitted. -/
theorem reinit_idempotent_reopened :
    ((Workshop.init { cancelled := true } misdirected).go withForm).1 = .ok (.unchanged .done) ∧
      (after ([] ++ [.init {} applying]) (ofCapacity 1 1)).workshop.Started ⟨"$1-apply"⟩ ∧
      Erases ⟨"$1-apply"⟩ reopening (after ([] ++ [.init {} applying]) (ofCapacity 1 1)) := by
  have hrun : Runs (Workshop.ofCapacity 1 1) ([] ++ [(opening, _)]) withForm := .call .nil opening
  have hstate : (withForm.store.records.get? ⟨"$1-apply"⟩).map (·.state) = some .inProgress := by
    decide +kernel
  obtain ⟨r, hr, hs⟩ := Option.map_eq_some_iff.mp hstate
  have hmove : (((Workshop.init {} applying).go (Workshop.ofCapacity 1 1)).1.toOption.bind
      (·.newState)) = some .inProgress := by
    decide +kernel
  obtain ⟨x, hx, hnew⟩ := Option.bind_eq_some_iff.mp hmove
  have hanswer : ((Op.init {} applying).perform (after [] (ofCapacity 1 1))).1 =
      .response (.ok x) := by
    rcases hgo : (Workshop.init {} applying).go (Workshop.ofCapacity 1 1) with ⟨f | y, w⟩
    · rw [hgo] at hx
      cases hx
    · rw [hgo] at hx
      cases hx
      exact congrArg (fun q => Answer.response q.1) hgo
  have hup : (after ([] ++ [.init {} applying]) (ofCapacity 1 1)).workshop.store.Up := ⟨rfl, rfl⟩
  have hrest : ∀ o ∈ reopening, o.LeavesStore := by
    simp [reopening, Op.LeavesStore]
  obtain ⟨hagain, -⟩ := reinit_idempotent 1 1
  have hstarted := ((reinit_idempotent 1 1).2 []).1 {} applying x _ hanswer hnew
  refine ⟨?_, hstarted, ?_⟩
  · refine (hagain _ _ hrun _ misdirected r hr ?_).2.2.2.2 ⟨rfl, rfl⟩ (by decide) (by decide)
    rw [hs]
    decide
  · exact ((reinit_idempotent 1 1).2 _).2 _ hstarted hup _ hrest

end Engine

end Clearance
