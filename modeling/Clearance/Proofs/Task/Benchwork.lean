import Clearance.Proofs.Act
import Clearance.Task.Plugin

/-!
# Clearance — Proofs — Task — What the plugins are made of

* `Deskwork`: a property that all actions at a bench have which are put together out of what is read
  there, checks, and writes to the store.
* `Benchwork`: …and submissions to agencies.
* `Benchwork.start`, `Benchwork.execute`, `Benchwork.render`: the logic of the built-in plugins is
  such an action, and so is what they show if they need not fetch it.
-/

namespace Clearance

open Bench

/-! ### At the desk -/

/-- The steps that call nobody outside have the property, and so has what is made of them. -/
structure Deskwork (P : ∀ {α : Type}, Act Bench α → Prop) : Prop extends Act.Closed P where
  handleNow : P handleNow
  setHandle : ∀ f : Handle → Handle, P (setHandle f)
  write : ∀ (m : TaskStore.Method) (id : NodeId) (f : TaskRecord → TaskRecord),
    P (onStore (do TaskStore.enter m; TaskStore.modify id f))

namespace Deskwork

variable {P : ∀ {α : Type}, Act Bench α → Prop}

theorem setLocal (h : Deskwork @P) (key : String) (value : Json) : P (setLocal key value) :=
  h.bind h.handleNow fun _ => h.bind (h.write _ _ _) fun _ => h.setHandle _

theorem setPluginState (h : Deskwork @P) (state : String) : P (setPluginState state) :=
  h.bind h.handleNow fun _ => h.bind (h.write _ _ _) fun _ => h.setHandle _

theorem move (h : Deskwork @P) (next : Lifecycle) (state : Option String) : P (move next state) := by
  refine h.bind h.handleNow fun _ => h.check ?_
  exact h.bind (h.write _ _ _) fun _ => h.setHandle _

theorem settle (h : Deskwork @P) (x : Response) : P (settle x) := by
  unfold Bench.settle
  cases x.newState with
  | none => exact h.pure x
  | some next => exact h.bind (h.move next _) fun _ => h.pure x

theorem startBy (h : Deskwork @P) {logic : Act Bench Response} (hl : P logic) :
    P (startBy logic) :=
  h.bind h.handleNow fun _ => iteInduction (fun _ => h.pure _) fun _ => h.bind hl h.settle

theorem executeBy (h : Deskwork @P) {logic : Act Bench Response} (hl : P logic) :
    P (executeBy logic) := by
  refine h.bind h.handleNow fun _ => h.check ?_
  exact h.bind hl h.settle

/-- What a task keeps of a content that has to be an object. -/
theorem saveDraft (h : Deskwork @P) (content : Json) : P (FormConfig.saveDraft content) :=
  h.bind (h.lift _) fun _ => h.bind (h.setLocal _ _) fun _ => h.pure _

theorem completeReview (h : Deskwork @P) (c : FormConfig) (content : Json) :
    P (c.completeReview content) := by
  refine h.bind h.handleNow fun _ => h.check ?_
  cases FormConfig.decision? content with
  | none => exact h.throw _
  | some decision => exact h.bind (h.setLocal _ _) fun _ => h.pure _

theorem receive (h : Deskwork @P) (c : EventConfig) (content : Json) : P (c.receive content) := by
  refine h.bind (h.lift _) fun _ => h.check ?_
  exact h.bind (h.setLocal _ _) fun _ => h.pure _

/-- A waiting task calls nobody once it has been started. -/
theorem executeEvent (h : Deskwork @P) (c : EventConfig) (q : ActionRequest) : P (c.execute q) := by
  unfold EventConfig.execute
  split
  · exact h.receive c q.content
  · exact h.bind (h.setLocal _ _) fun _ => h.pure _
  · exact h.throw _

theorem startForm (h : Deskwork @P) : P FormConfig.start :=
  h.bind h.handleNow fun _ => iteInduction (fun _ => h.pure _) fun _ => h.pure _

theorem renderEvent (h : Deskwork @P) (c : EventConfig) : P c.render :=
  h.bind h.handleNow fun _ => h.pure _

end Deskwork

/-! ### Submissions -/

/-- Submissions have the property, too. -/
structure Benchwork (P : ∀ {α : Type}, Act Bench α → Prop) : Prop extends Deskwork P where
  submit : ∀ (ctx : CallContext) (url : String) (data : Json) (task : NodeId)
    (workflow : InstanceId), P (onAgency (Agency.submit ctx url data task workflow))

namespace Benchwork

variable {P : ∀ {α : Type}, Act Bench α → Prop}

theorem forward (h : Benchwork @P) (c : FormConfig) (ctx : CallContext) (data : Json) :
    P (c.forward ctx data) := by
  unfold FormConfig.forward
  cases c.submissionUrl with
  | none => exact h.pure _
  | some url =>
      refine h.bind h.handleNow fun _ => h.bind (h.submit ctx url data _ _) fun _ => ?_
      exact h.bind (h.setLocal _ _) fun _ => h.pure _

theorem submitForm (h : Benchwork @P) (c : FormConfig) (ctx : CallContext) (content : Json) :
    P (c.submit ctx content) := by
  refine h.bind h.handleNow fun _ => h.check ?_
  refine h.bind (h.lift _) fun data => h.bind (h.forward c ctx data) fun _ => ?_
  exact h.bind (h.setLocal _ _) fun _ => h.pure _

theorem announce (h : Benchwork @P) (c : EventConfig) (ctx : CallContext) : P (c.announce ctx) := by
  unfold EventConfig.announce
  cases c.notifyUrl with
  | none => exact h.pure _
  | some url =>
      exact h.bind h.handleNow fun _ => h.bind (h.submit ctx url _ _ _) fun _ => h.setLocal _ _

theorem start (h : Benchwork @P) (p : Plugin) (ctx : CallContext) : P (p.start ctx) := by
  cases p with
  | form c => exact h.startForm
  | event c =>
      refine h.bind h.handleNow fun _ => iteInduction (fun _ => h.pure _) fun _ => ?_
      refine iteInduction (fun _ => ?_) fun _ => h.pure _
      exact h.bind (h.announce c ctx) fun _ => h.bind (h.setPluginState _) fun _ => h.pure _

theorem execute (h : Benchwork @P) (p : Plugin) (ctx : CallContext) (q : ActionRequest) :
    P (p.execute ctx q) := by
  cases p with
  | form c =>
      unfold Plugin.execute FormConfig.execute
      dsimp only
      split
      · exact h.saveDraft q.content
      · exact h.submitForm c ctx q.content
      · exact h.completeReview c q.content
      · exact h.throw _
  | event c => exact h.executeEvent c q

/-- The form that a plugin shows, if it shows one. -/
theorem render (h : Benchwork @P) (p : Plugin) (ctx : CallContext)
    (hform : ∀ c, p = .form c → P (c.form ctx)) : P (p.render ctx) := by
  cases p with
  | form c => exact h.bind (hform c rfl) fun _ => h.bind h.handleNow fun _ => h.pure _
  | event c => exact h.renderEvent c

end Benchwork

end Clearance
