import Clearance.Proofs.Engine.Creation
import Clearance.Proofs.Engine.Run

/-!
# Clearance — Proofs — Engine — What an operation does

* `Engine.Steady`: the tables of the workflows and the parts of the workshop agree, and no call to
  the store of workflows fails.
* `Engine.Effect`: the ways in which an operation changes an engine.
* `Engine.effect_perform`: from a steady engine every operation has one of these effects.
* `Engine.Steady.effect`: they leave the engine steady.
-/

namespace Clearance

namespace Engine

open WorkflowStore Workshop

/-- What an engine keeps in several places agrees. -/
structure Steady (e : Engine) : Prop where
  sound : e.workflows.Sound
  unfaulted : e.workflows.faults = .none
  coherent : e.workshop.Coherent

theorem steady_ofCapacity (containers notifications : Nat) :
    (ofCapacity containers notifications).Steady :=
  ⟨sound_empty, rfl, coherent_ofCapacity containers notifications⟩

/-- The oldest notification was taken out of the mailbox. -/
structure Took (note : Notification) (e e' : Engine) : Prop where
  queue : e.workshop.mailbox.queue = note :: e'.workshop.mailbox.queue
  rest : e' = { e with workshop := { e.workshop with mailbox := e'.workshop.mailbox } }

theorem receive_eq (e : Engine) :
    e.workshop.mailbox.queue = [] ∧ e.receive = (none, e) ∨
      ∃ note e', Took note e e' ∧ e.receive = (some note, e') := by
  unfold receive Mailbox.take?
  cases hq : e.workshop.mailbox.queue with
  | nil => exact .inl ⟨rfl, rfl⟩
  | cons note rest => exact .inr ⟨note, _, ⟨hq, rfl⟩, rfl⟩

theorem took_of_receive {e e' : Engine} {note : Notification} (h : e.receive = (some note, e')) :
    Took note e e' := by
  rcases receive_eq e with ⟨-, hnone⟩ | ⟨note', e₁, ht, hsome⟩
  · cases hnone.symm.trans h
  · cases hsome.symm.trans h
    exact ht

/-- The notification that an operation has handled, and the engine it is handled in. -/
def Op.Brings (note : Notification) (e e' : Engine) : Op → Prop
  | .deliver => Took note e e'
  | .notify k => k = note ∧ e' = e
  | _ => False

/-- Everything around the tasks and what they sent is as it may be. -/
structure Around (w w' : Workshop) : Prop where
  records : w'.store.records = w.store.records
  cache : w'.cache = w.cache
  metrics : w'.metrics = w.metrics
  build : w'.build = w.build

/-- What an operation does to an engine. -/
inductive Effect (e : Engine) : Op → Engine → Prop
  | created {kind : InstanceKind} {d : WorkflowDefinition} {globalContext : Context} {c : Created}
      {e' : Engine} (h : Founded c e e') (hd : c = e.drafted kind d globalContext) :
      Effect e (.create kind d globalContext) e'
  | uncreated {kind : InstanceKind} {d : WorkflowDefinition} {globalContext : Context} {e' : Engine}
      (hs : e.workflows.Becomes e'.workflows e.workflows.nodes.get?)
      (hw : Served (fun id => e.workflows.nodes.get? id = none) e.workshop e'.workshop) :
      Effect e (.create kind d globalContext) e'
  | activated {ctx : CallContext} {a : Activation} {w : Workshop}
      (h : Serves a.nodeId e.workshop w) : Effect e (.init ctx a) { e with workshop := w }
  | served {op : Op} {id : NodeId} {w : Workshop} (h : Serves id e.workshop w)
      (habsent : e.workshop.store.records.get? id = none → Unmoved e.workshop w) :
      Effect e op { e with workshop := w }
  | advanced {op : Op} {note : Notification} {e₁ e' : Engine} {n m : WorkflowNode}
      (hop : op.Brings note e e₁) (ht : e.Takes note n m) (h : Advanced m e₁ e') : Effect e op e'
  | refused {op : Op} {note : Notification} {e₁ e' : Engine} (hop : op.Brings note e e₁)
      (hn : ∀ n, e.workflows.nodes.get? note.nodeId = some n → n.take? note = none)
      (hs : e.workflows.Becomes e'.workflows e.workflows.nodes.get?)
      (hw : Served (fun _ => False) e₁.workshop e'.workshop) : Effect e op e'
  | idle : Effect e .deliver e
  | outside {op : Op} {w : Workshop} (h : Around e.workshop w)
      (hq : w.mailbox.queue = e.workshop.mailbox.queue) : Effect e op { e with workshop := w }
  | discarded {w : Workshop} (h : Around e.workshop w) (hq : w.mailbox.queue = []) :
      Effect e .discard { e with workshop := w }

/-- What is taken out of the mailbox leaves the rest of the engine as it was. -/
theorem Op.Brings.rest {op : Op} {note : Notification} {e e' : Engine} (h : op.Brings note e e') :
    e'.workflows = e.workflows ∧ Around e.workshop e'.workshop ∧
      ∀ k ∈ e'.workshop.mailbox.queue, k ∈ e.workshop.mailbox.queue := by
  cases op with
  | deliver =>
      have ht : Took note e e' := h
      obtain ⟨hq, hr⟩ := ht
      rw [hr] at hq ⊢
      rw [hq]
      exact ⟨rfl, ⟨rfl, rfl, rfl, rfl⟩, fun _ => List.mem_cons_of_mem _⟩
  | notify k =>
      obtain ⟨-, rfl⟩ := h
      exact ⟨rfl, ⟨rfl, rfl, rfl, rfl⟩, fun _ h => h⟩
  | _ => exact h.elim

theorem Op.Brings.made {op : Op} {note : Notification} {e e' : Engine} (h : op.Brings note e e') :
    e'.instancesMade = e.instancesMade := by
  cases op with
  | deliver => rw [Took.rest h]
  | notify k =>
      obtain ⟨-, rfl⟩ := h
      rfl
  | _ => exact h.elim

/-! ### Steadiness -/

theorem Around.coherent {w w' : Workshop} (h : Around w w') (hw : w.Coherent)
    (hq : ∀ n ∈ w'.mailbox.queue, n ∈ w.mailbox.queue) : w'.Coherent :=
  hw.of_eq h.records h.build (fun _ _ hc => h.cache ▸ hc) hq

theorem Steady.brings {op : Op} {note : Notification} {e e' : Engine} (h : e.Steady)
    (hop : op.Brings note e e') : e'.Steady := by
  obtain ⟨hs, ha, hq⟩ := hop.rest
  exact ⟨hs ▸ h.sound, hs ▸ h.unfaulted, ha.coherent h.coherent hq⟩

theorem Founded.sound {c : Created} {e e' : Engine} (h : Founded c e e') (hs : e.workflows.Sound) :
    e'.workflows.Sound := by
  have hk := hs.commit h.conflict h.well.distinct h.well.owner h.well.inside h.well.fit
  rw [h.workflows]
  exact ⟨hk.keyed, hk.owned, hk.listed, hk.distinct, hk.stored, hk.peopled, hk.inside, hk.fit⟩

/-- A store that finds the nodes it found stays sound. -/
theorem sound_same {s s' : WorkflowStore} (h : s.Sound) (b : s.Becomes s' s.nodes.get?) :
    s'.Sound :=
  h.becomes b (fun id n hn => ⟨h.fit id n hn, n, hn, .refl n⟩) fun _ n hn => ⟨n, hn, .refl n⟩

/-- Every effect leaves the engine steady. -/
theorem Steady.effect {e e' : Engine} {op : Op} (h : e.Steady) (he : Effect e op e') :
    e'.Steady := by
  cases he with
  | created k =>
      refine ⟨k.sound h.sound, ?_, k.workshop.coherent h.coherent⟩
      rw [k.workflows]
      exact h.unfaulted
  | uncreated hs hw =>
      exact ⟨sound_same h.sound hs, hs.faults.trans h.unfaulted, hw.coherent h.coherent⟩
  | activated k => exact ⟨h.sound, h.unfaulted, k.coherent⟩
  | served k _ => exact ⟨h.sound, h.unfaulted, k.coherent⟩
  | advanced hop ht k =>
      have h₁ := h.brings hop
      have hn := hop.rest.1 ▸ ht.found
      exact ⟨h₁.sound.advance hn ht.onward (ht.fit h.sound) k.workflows,
        k.workflows.faults.trans h₁.unfaulted, k.workshop.coherent h₁.coherent⟩
  | refused hop _ hs hw =>
      exact ⟨sound_same h.sound hs, hs.faults.trans h.unfaulted,
        hw.coherent (h.brings hop).coherent⟩
  | idle => exact h
  | outside k hq => exact ⟨h.sound, h.unfaulted, k.coherent h.coherent fun _ hn => hq ▸ hn⟩
  | discarded k hq =>
      exact ⟨h.sound, h.unfaulted, k.coherent h.coherent fun _ hn => by simp [hq] at hn⟩

/-! ### Every operation -/

theorem becomes_asked (e : Engine) (calls : Nat) :
    e.workflows.Becomes (e.asked calls).workflows e.workflows.nodes.get? :=
  ⟨fun _ => rfl, rfl, fun _ => rfl, rfl⟩

/-- A processed notification is handled, and counted as handled or as failed. -/
theorem process_ends {e : Engine} (h : e.Steady) (note : Notification) :
    (process note).Ends e
      (fun _ e' =>
        (∃ n m, e.Takes note n m ∧ Advanced m e e') ∨
        e.workflows.Becomes e'.workflows e.workflows.nodes.get? ∧
          Served (fun _ => False) e.workshop e'.workshop ∧
          ∀ n, e.workflows.nodes.get? note.nodeId = some n → n.take? note = none)
      fun _ _ => False := by
  simp only [process, onWorkshop, Workshop.count, Act.ends_bind, Act.ends_attempt]
  refine (handle_ends h.sound h.unfaulted h.coherent note).mono (fun _ e₁ k => ?_) fun _ e₁ k => ?_
  · obtain ⟨n, m, ht, ha⟩ := k
    exact .inl ⟨n, m, ht, ha.workflows, .count ha.workshop (by decide)⟩
  · obtain ⟨⟨calls, rfl⟩, hn⟩ := k
    exact .inr ⟨(becomes_asked e calls), .count .refl (by decide), hn⟩

/-- **Effects.** Every operation on a steady engine has one of the effects. -/
theorem effect_perform {e : Engine} (h : e.Steady) (op : Op) : Effect e op (op.perform e).2 := by
  cases op with
  | create kind d globalContext =>
      have hends := createInstance_ends h.unfaulted h.coherent kind d globalContext
      refine Act.ends_state.mp (hends.mono (fun _ e' k => ?_) fun _ e' k => ?_)
      · exact .created k.1 k.2
      · exact .uncreated k.1 k.2
  | init ctx a => exact .activated (init_serves h.coherent ctx a)
  | execute ctx id q =>
      exact .served (execute_serves h.coherent ctx id q)
        fun hno => execute_absent h.coherent hno ctx q
  | render ctx id =>
      exact .served (render_serves h.coherent ctx id) fun hno => render_absent h.coherent hno ctx
  | snapshot id => exact .served (snapshot_serves h.coherent id) (snapshot_absent h.coherent)
  | deliver =>
      rcases receive_eq e with ⟨-, he⟩ | ⟨note, e₁, ht, he⟩
      · rw [Op.perform, he]
        exact .idle
      · rw [Op.perform, he]
        -- the notification is out of the mailbox when it is handled
        have hop : Op.deliver.Brings note e e₁ := ht
        have hs := hop.rest.1
        refine Act.ends_state.mp ((process_ends (h.brings hop) note).mono (fun _ e' k => ?_)
          fun _ _ k => k.elim)
        rcases k with ⟨n, m, ht, ha⟩ | ⟨hb, hw, hn⟩
        · exact .advanced hop (ht.of_nodes (by rw [hs])) ha
        · exact .refused hop (hs ▸ hn) (hs ▸ hb) hw
  | notify note =>
      have hop : (Op.notify note).Brings note e e := ⟨rfl, rfl⟩
      refine Act.ends_state.mp ((handle_ends h.sound h.unfaulted h.coherent note).mono
        (fun _ e' k => ?_) fun _ e' k => ?_)
      · obtain ⟨n, m, ht, ha⟩ := k
        exact .advanced hop ht ha
      · obtain ⟨⟨calls, rfl⟩, hn⟩ := k
        exact .refused hop hn (becomes_asked e calls) .refl
  | outage available faults => exact .outside ⟨rfl, rfl, rfl, rfl⟩ rfl
  | agencies reachable replies => exact .outside ⟨rfl, rfl, rfl, rfl⟩ rfl
  | close => exact .outside ⟨rfl, rfl, rfl, rfl⟩ rfl
  | discard => exact .discarded ⟨rfl, rfl, rfl, rfl⟩ rfl

/-- The first permit that is applied for is the first instance. -/
theorem exists_permit (globalContext : Context) :
    ∃ c e, (createInstance .consignment permit globalContext).go (ofCapacity 1 1) = (.ok c, e) ∧
      c.inst.id = .nth 1 := by
  have hmade : ((createInstance .consignment permit globalContext).go
      (ofCapacity 1 1)).1.toOption.map (·.inst.id) = some (.nth 1) := by
    rw [createInstance_of_valid permit_valid]
    cbv
  rcases hgo : (createInstance .consignment permit globalContext).go (ofCapacity 1 1) with
    ⟨f | c, e⟩
  · rw [hgo] at hmade
    cases hmade
  · rw [hgo] at hmade
    exact ⟨c, e, rfl, Option.some.inj hmade⟩

/-- Every engine that is reached is steady. -/
theorem Steady.reaches {admits : Engine → Op → Prop} {e e' : Engine} (h : e.Steady)
    (hr : Reaches admits e e') : e'.Steady :=
  hr.invariant h fun _ op _ h => h.effect (effect_perform h op)

/-- What the effects of all admitted operations keep, a run from a steady engine keeps. -/
theorem Steady.invariant {admits : Engine → Op → Prop} {I : Engine → Prop} {e e' : Engine}
    (h : e.Steady) (hr : Reaches admits e e') (h₀ : I e)
    (hstep : ∀ {e₁ e₂ op}, e₁.Steady → admits e₁ op → Effect e₁ op e₂ → I e₁ → I e₂) : I e' := by
  have hrun : e'.Steady ∧ I e' := by
    refine hr.invariant (I := fun e => e.Steady ∧ I e) ⟨h, h₀⟩ fun e₁ op ha h₁ => ?_
    have he := effect_perform h₁.1 op
    exact ⟨h₁.1.effect he, hstep h₁.1 ha he h₁.2⟩
  exact hrun.2

end Engine

end Clearance
