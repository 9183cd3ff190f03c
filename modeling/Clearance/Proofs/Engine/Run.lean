import Clearance.Engine.Consumer
import Clearance.Engine.Creation
import Mathlib

/-!
# Clearance — Proofs — Engine — Runs

What may happen to an engine, one operation at a time (`Engine.Op`), and the engines that come of
it.

* `Engine.Op.perform`: the answer of an operation and the engine it leaves.
* `Engine.Reaches`: an engine is reached from another by operations that are admitted where they
  come.
* `Engine.Reaches.invariant`: what holds at first and is kept by every admitted operation holds of
  all engines reached.
-/

namespace Clearance

namespace Engine

/-- What may happen to an engine. -/
inductive Op where
  | create (kind : InstanceKind) (d : WorkflowDefinition) (globalContext : Context)
  /-- A task is activated from outside the workflow layer. -/
  | init (ctx : CallContext) (a : Activation)
  | execute (ctx : CallContext) (id : NodeId) (r : ActionRequest)
  | render (ctx : CallContext) (id : NodeId)
  | snapshot (id : NodeId)
  /-- The consumer takes the oldest notification, if there is one, and processes it. -/
  | deliver
  /-- A notification that need not have been queued is handled. -/
  | notify (note : Notification)
  /-- The task store comes to be available or not, and to fail by other faults. -/
  | outage (available : Bool) (faults : Faults TaskStore.Method)
  /-- The agencies come to be reachable or not, and to give other replies. -/
  | agencies (reachable : Bool) (replies : Table (HttpMethod × String) (List AgencyReply))
  /-- The mailbox accepts no more notifications. -/
  | close
  /-- The mailbox closes and loses what is queued. -/
  | discard

/-- The answer of an operation. -/
inductive Answer where
  | created (r : Except Failure Created)
  | response (r : Except Failure Response)
  | reply (r : Except Failure Reply)
  | copy (r : Except Failure Handle)
  | taken (note : Option Notification)
  | progress (r : Except Failure Progress)
  | done

namespace Op

/-- The answer of an operation and the engine it leaves. -/
def perform (e : Engine) : Op → Answer × Engine
  | create kind d globalContext =>
    let (r, e) := (createInstance kind d globalContext).go e
    (.created r, e)
  | init ctx a =>
    let (r, e) := (onWorkshop (Workshop.init ctx a)).go e
    (.response r, e)
  | execute ctx id q =>
    let (r, e) := (onWorkshop (Workshop.execute ctx id q)).go e
    (.response r, e)
  | render ctx id =>
    let (r, e) := (onWorkshop (Workshop.render ctx id)).go e
    (.reply r, e)
  | snapshot id =>
    let (r, e) := (onWorkshop (Workshop.snapshot id)).go e
    (.copy r, e)
  | deliver =>
    match e.receive with
    | (none, e) => (.taken none, e)
    | (some note, e) => (.taken (some note), ((process note).go e).2)
  | notify note =>
    let (r, e) := (handle note).go e
    (.progress r, e)
  | outage available faults =>
    let store := { e.workshop.store with available := available, faults := faults }
    (.done, { e with workshop := { e.workshop with store := store } })
  | agencies reachable replies =>
    let agency := { e.workshop.agency with reachable := reachable, replies := replies }
    (.done, { e with workshop := { e.workshop with agency := agency } })
  | close =>
    (.done, { e with workshop := { e.workshop with mailbox := e.workshop.mailbox.close } })
  | discard =>
    (.done, { e with workshop := { e.workshop with mailbox := e.workshop.mailbox.abandon } })

end Op

/-- The engine after operations one after the other. -/
def after (ops : List Op) (e : Engine) : Engine := ops.foldl (fun e op => (op.perform e).2) e

/-- `e'` is reached from `e` by operations that are admitted where they come. -/
inductive Reaches (admits : Engine → Op → Prop) (e : Engine) : Engine → Prop
  | refl : Reaches admits e e
  | step {e₁ : Engine} (h : Reaches admits e e₁) (op : Op) (ha : admits e₁ op) :
      Reaches admits e (op.perform e₁).2

/-- A form to apply with, and the wait for a payment after it. -/
def permit : WorkflowDefinition where
  name := "permit"
  description := none
  templates := [
    { NodeTemplate.ofKind ⟨"apply"⟩ .simpleForm with config := .obj [("formId", .str "F")] },
    { (NodeTemplate.ofKind ⟨"pay"⟩ .waitForEvent).after ⟨"apply"⟩ none with
      config := .obj [("event", .str "E")]
      terminal := true }]

theorem permit_valid : permit.validate = .ok [⟨"apply"⟩, ⟨"pay"⟩] := by cbv

/-- An engine in which the form of a permit is open. -/
def opened : Engine := after [.create .consignment permit {}, .deliver] (ofCapacity 1 1)

namespace Reaches

variable {admits : Engine → Op → Prop} {e e' : Engine}

/-- What every admitted operation keeps, a run keeps. -/
theorem invariant {I : Engine → Prop} (h : Reaches admits e e') (h₀ : I e)
    (hstep : ∀ e op, admits e op → I e → I (op.perform e).2) : I e' := by
  induction h with
  | refl => exact h₀
  | step _ op ha ih => exact hstep _ op ha ih

end Reaches

end Engine

end Clearance
