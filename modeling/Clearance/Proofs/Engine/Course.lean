import Clearance.Proofs.Engine.Effect

/-!
# Clearance — Proofs — Engine — The course of an operation

* `Engine.Course`: what an operation does to the workflows, and which activations it hands to the
  task layer, in their order.
* `Engine.exists_course`: every operation on a steady engine has such a course.
* `Engine.Course.inits`: unless a client works on a task, the tasks are only activated.
-/

namespace Clearance

namespace Engine

open WorkflowStore Workshop

/-- An operation of a client on one task, or something that happens around the tasks. -/
def Op.Outside : Op → Prop
  | .create _ _ _ | .deliver | .notify _ => False
  | _ => True

/-- From `e` these activations are made, one after the other, while the workflows stay as they
are. -/
structure Activates (e : Engine) (as : List Activation) (e' : Engine) : Prop where
  workflows : e'.workflows = e.workflows
  made : e'.instancesMade = e.instancesMade
  workshop : Inits e.workshop as e'.workshop

/-- Whatever is activated afterwards, the nodes are where the notification has brought them. -/
theorem Activates.get?_settled {e e₁ e' : Engine} {note : Notification} {n m : WorkflowNode}
    {x : WorkflowInstance} {calls : Nat} {as : List Activation}
    (h : Activates (e₁.settled note m x calls) as e') (hsame : e₁.workflows = e.workflows)
    (hs : e.workflows.Sound) (ht : e.Takes note n m)
    (hx : e.workflows.instances.get? m.owner.instanceId = some x)
    (hid : x.id = m.owner.instanceId) (id : NodeId) :
    e'.workflows.nodes.get? id = Lookup.advance e.workflows.nodes.get? m id := by
  rw [h.workflows, settled, hsame]
  exact (ht.becomes hs hx hid).nodes id

/-- The course of an operation: the activations that the workflow layer makes in it, in their order,
and the engine it leaves. -/
inductive Course (e : Engine) : Op → List Activation → Engine → Prop
  /-- Nothing is made of a definition that is not valid. -/
  | invalid {kind : InstanceKind} {d : WorkflowDefinition} {globalContext : Context}
      {f : DefinitionError} (h : d.validate = .error f) :
      Course e (.create kind d globalContext) [] e
  /-- The id of the instance is taken already, or that of one of its nodes. -/
  | conflicting {kind : InstanceKind} {d : WorkflowDefinition} {globalContext : Context}
      {c : Created} {f : Failure} (hd : c = e.drafted kind d globalContext)
      (hc : e.workflows.conflict? c.inst c.nodes = some f) :
      Course e (.create kind d globalContext) [] (e.forsaken e.workshop)
  /-- A starting task failed, so the instance is not committed. -/
  | aborted {kind : InstanceKind} {d : WorkflowDefinition} {globalContext : Context}
      {c : Created} {f : Failure} {w : Workshop} {order : List TemplateId}
      (hv : d.validate = .ok order) (hd : c = e.drafted kind d globalContext)
      (hi : (initAll c.starts).go e.workshop = (.error f, w)) :
      Course e (.create kind d globalContext) (e.workshop.attempted c.starts) (e.forsaken w)
  /-- All starting tasks were activated, and then the instance was committed. -/
  | founded {kind : InstanceKind} {d : WorkflowDefinition} {globalContext : Context}
      {c : Created} {w : Workshop} {order : List TemplateId} (hv : d.validate = .ok order)
      (hd : c = e.drafted kind d globalContext)
      (hc : e.workflows.conflict? c.inst c.nodes = none)
      (hi : (initAll c.starts).go e.workshop = (.ok (), w)) :
      Course e (.create kind d globalContext) c.starts
        ⟨w, e.workflows.called.commit c.inst c.nodes, e.instancesMade + 1⟩
  /-- No notification is there to be taken. -/
  | idle (hq : e.workshop.mailbox.queue = []) : Course e .deliver [] e
  /-- A notification is refused. -/
  | refused {op : Op} {note : Notification} {f : Failure} {e₁ e' : Engine} {calls : Nat}
      (hop : op.Brings note e e₁) (hr : note.Refused e.workflows.nodes.get? f)
      (hw : Activates (e₁.asked calls) [] e') : Course e op [] e'
  /-- A notification is carried out.  Once the store is settled, the unlocked dependents are
  activated, however many of the activations fail. -/
  | carried {op : Op} {note : Notification} {n m : WorkflowNode} {x : WorkflowInstance}
      {e₁ e' : Engine} {calls : Nat} (hop : op.Brings note e e₁) (ht : e.Takes note n m)
      (hx : e.workflows.instances.get? m.owner.instanceId = some x)
      (hid : x.id = m.owner.instanceId)
      (hw : Activates (e₁.settled note m x calls) (e.workflows.registrations note m x) e') :
      Course e op (e.workflows.registrations note m x) e'
  /-- The workflow layer has no part in it. -/
  | outside {op : Op} {w : Workshop} (hop : op.Outside) :
      Course e op [] { e with workshop := w }

/-! ### Every operation has a course -/

/-- The course of an operation that has a notification handled, and then perhaps counts it. -/
theorem course_of_handled {e e₁ e₂ e' : Engine} {op : Op} {note : Notification}
    {r : Except Failure Progress} (hop : op.Brings note e e₁) (h : Handled e₁ note r e₂)
    (hs : e'.workflows = e₂.workflows) (hm : e'.instancesMade = e₂.instancesMade)
    (hw : ∀ {as w}, Inits w as e₂.workshop → Inits w as e'.workshop) :
    ∃ as, Course e op as e' := by
  obtain ⟨hsame, -, -⟩ := hop.rest
  cases h with
  | refused hr => exact ⟨[], .refused hop (hsame ▸ hr) ⟨hs, hm, hw .nil⟩⟩
  | @carried n m x calls ht hx hid =>
      have hall := Inits.registers .nil (w := (e₁.settled note m x calls).workshop)
        (e₁.workflows.registrations note m x)
      rw [hsame] at hx
      refine ⟨_, .carried hop (ht.of_nodes (by rw [hsame])) hx hid ⟨hs, hm, ?_⟩⟩
      rw [← hsame]
      exact hw hall

/-- The counter of notifications that were processed so. -/
def processed : Except Failure Progress → MetricKind
  | .ok _ => .notificationProcessed
  | .error _ => .notificationFailed

theorem processed_ne_dropped (r : Except Failure Progress) :
    processed r ≠ .notificationDropped := by
  cases r with
  | ok _ => simp [processed]
  | error _ => simp [processed]

theorem process_go (e : Engine) (note : Notification) :
    ((process note).go e).2 = { ((handle note).go e).2 with
      workshop := { ((handle note).go e).2.workshop with
        metrics := ((handle note).go e).2.workshop.metrics.record
          (processed ((handle note).go e).1) } } := by
  rcases hgo : (handle note).go e with ⟨_ | _, e'⟩
  · rw [process, Act.go_bind_ok (Act.go_attempt hgo)]
    rfl
  · rw [process, Act.go_bind_ok (Act.go_attempt hgo)]
    rfl

/-- **Courses.** Every operation on a steady engine has a course. -/
theorem exists_course {e : Engine} (h : e.Steady) (op : Op) :
    ∃ as, Course e op as (op.perform e).2 := by
  cases op with
  | create kind d globalContext =>
      have hcreating := createInstance_creating h.unfaulted kind d globalContext
      rw [Op.perform]
      revert hcreating
      rcases (createInstance kind d globalContext).go e with ⟨r, e'⟩
      intro hcreating
      cases hcreating with
      | invalid hv => exact ⟨_, .invalid hv⟩
      | conflicting _ hd hc => exact ⟨_, .conflicting hd hc⟩
      | aborted hv hd _ hi => exact ⟨_, .aborted hv hd hi⟩
      | founded hv hd hc hi => exact ⟨_, .founded hv hd hc hi⟩
  | deliver =>
      rcases receive_eq e with ⟨hq, he⟩ | ⟨note, e₁, ht, he⟩
      · rw [Op.perform, he]
        exact ⟨_, .idle hq⟩
      · have hop : Op.deliver.Brings note e e₁ := ht
        have h₁ := h.brings hop
        have hperform : (Op.deliver.perform e).2 = ((process note).go e₁).2 := by
          rw [Op.perform, he]
        rw [hperform, process_go]
        exact course_of_handled hop (handle_handled h₁.sound h₁.unfaulted note) rfl rfl
          fun hi => .count hi (processed_ne_dropped _)
  | notify note =>
      have hop : (Op.notify note).Brings note e e := ⟨rfl, rfl⟩
      exact course_of_handled hop (handle_handled h.sound h.unfaulted note) rfl rfl fun hi => hi
  | init _ _ => exact ⟨_, .outside trivial⟩
  | execute _ _ _ => exact ⟨_, .outside trivial⟩
  | render _ _ => exact ⟨_, .outside trivial⟩
  | snapshot _ => exact ⟨_, .outside trivial⟩
  | outage _ _ => exact ⟨_, .outside trivial⟩
  | agencies _ _ => exact ⟨_, .outside trivial⟩
  | close => exact ⟨_, .outside trivial⟩
  | discard => exact ⟨_, .outside trivial⟩

/-- An operation of which the workflow layer is a part does nothing to the tasks but activate
some. -/
theorem Course.inits {e e' : Engine} {op : Op} {as : List Activation} (hc : Course e op as e')
    (h : e.Steady) (hop : ¬ op.Outside) :
    ∃ w, w.Coherent ∧ w.store.records = e.workshop.store.records ∧ w.build = e.workshop.build ∧
      Inits w as e'.workshop := by
  cases hc with
  | invalid _ => exact ⟨_, h.coherent, rfl, rfl, .nil⟩
  | conflicting _ _ => exact ⟨_, h.coherent, rfl, rfl, .nil⟩
  | aborted _ _ hi => exact ⟨_, h.coherent, rfl, rfl, .of_initAll hi⟩
  | founded _ _ _ hi =>
      have hall := Inits.of_initAll hi
      rw [attempted_of_ok hi] at hall
      exact ⟨_, h.coherent, rfl, rfl, hall⟩
  | idle _ => exact ⟨_, h.coherent, rfl, rfl, .nil⟩
  | refused hb _ hw =>
      exact ⟨_, (h.brings hb).coherent, hb.rest.2.1.records, hb.rest.2.1.build, hw.workshop⟩
  | carried hb _ _ _ hw =>
      refine ⟨_, ?_, ?_, ?_, hw.workshop⟩
      · exact (h.brings hb).coherent.of_eq rfl rfl (fun _ _ hk => hk) fun _ hq => hq
      · exact hb.rest.2.1.records
      · exact hb.rest.2.1.build
  | outside hout => exact absurd hout hop

end Engine

end Clearance
