import Clearance.Proofs.Engine.Effect

/-!
# Clearance — Proofs — Engine — A notification is handled whole or not at all

* `Notification.Refused.category`, `Notification.Refused.unique`: what a refusal is reported as, and
  that there is one reason for it.
* `Engine.handle_refused`, `Engine.handle_taken`: what there is a reason to refuse is refused for that
  reason, and what a node takes is carried out.
* `Engine.Takes.carried`: the node is found then as it has become.
* `Engine.handle_all_or_nothing`: in an engine that is reached, a notification is refused and leaves
  everything as it was, or no step of its handling fails.
-/

namespace Clearance

theorem Notification.Refused.category {look : Lookup} {note : Notification} {f : Failure}
    (h : note.Refused look f) : f.category ∈ [.unrecognizedState, .notFound, .validation] := by
  cases h with
  | unknownLifecycle _ _ => exact .head _
  | noNode _ _ => exact .tail _ (.head _)
  | cannotAdvance _ _ _ => exact .tail _ (.tail _ (.head _))

/-- A notification is refused for one reason only. -/
theorem Notification.Refused.unique {look : Lookup} {note : Notification} {f g : Failure}
    (hf : note.Refused look f) (hg : note.Refused look g) : f = g := by
  cases hf with
  | unknownLifecycle ht hno =>
      cases hg with
      | unknownLifecycle ht' _ =>
          obtain rfl := Option.some.inj (ht.symm.trans ht')
          rfl
      | noNode hnamed _ =>
          obtain ⟨l, hl⟩ := hnamed _ ht
          exact absurd hl (hno l)
      | cannotAdvance _ hask _ =>
          obtain ⟨l, hl⟩ := Notification.named_of_asks hask ht
          exact absurd hl (hno l)
  | noNode hnamed hn =>
      cases hg with
      | unknownLifecycle ht hno =>
          obtain ⟨l, hl⟩ := hnamed _ ht
          exact absurd hl (hno l)
      | noNode _ _ => rfl
      | cannotAdvance hn' _ _ => exact nomatch hn.symm.trans hn'
  | cannotAdvance hn hask _ =>
      cases hg with
      | unknownLifecycle ht hno =>
          obtain ⟨l, hl⟩ := Notification.named_of_asks hask ht
          exact absurd hl (hno l)
      | noNode _ hn' => exact nomatch hn'.symm.trans hn
      | cannotAdvance hn' hask' _ =>
          obtain rfl := Option.some.inj (hn.symm.trans hn')
          obtain rfl := Except.ok.inj (hask.symm.trans hask')
          rfl

namespace Engine

/-- A notification that there is a reason to refuse is refused for that reason. -/
theorem handle_refused {e : Engine} (hs : e.workflows.Sound) (hf : e.workflows.faults = .none)
    {note : Notification} {f : Failure} (h : note.Refused e.workflows.nodes.get? f) :
    ∃ calls, (handle note).go e = (.error f, e.asked calls) := by
  have hhandled := handle_handled hs hf note
  revert hhandled
  rcases (handle note).go e with ⟨g | p, e'⟩
  · intro hhandled
    cases hhandled with
    | refused hr =>
        obtain rfl := hr.unique h
        exact ⟨_, rfl⟩
  · intro hhandled
    cases hhandled with
    | carried ht _ _ =>
        have hno := WorkflowNode.take?_of_refused h (ht.node ▸ ht.found)
        exact nomatch hno.symm.trans ht.taken

/-- A notification that its node takes is carried out. -/
theorem handle_taken {e : Engine} (hs : e.workflows.Sound) (hf : e.workflows.faults = .none)
    {note : Notification} {n m : WorkflowNode} (h : e.Takes note n m) :
    ∃ x calls, e.workflows.instances.get? m.owner.instanceId = some x ∧
      x.id = m.owner.instanceId ∧ (handle note).go e =
        (.ok ⟨m.id, n.state, m.state, (e.workflows.unlockedBy m).map (·.id),
          x.status.after m.terminal m.state⟩,
          (e.settled note m x calls).registering (e.workflows.registrations note m x)) := by
  have hhandled := handle_handled hs hf note
  revert hhandled
  rcases (handle note).go e with ⟨f | p, e'⟩
  · intro hhandled
    cases hhandled with
    | refused hr =>
        cases (WorkflowNode.take?_of_refused hr (h.node ▸ h.found)).symm.trans h.taken
  · intro hhandled
    cases hhandled with
    | carried k hx hid =>
        have hnode := h.node.symm.trans k.node
        obtain rfl := Option.some.inj (h.found.symm.trans (hnode ▸ k.found))
        obtain rfl := Option.some.inj (h.taken.symm.trans k.taken)
        exact ⟨_, _, hx, hid, rfl⟩

/-- Once a notification that its node takes is carried out, the node is found as it has become. -/
theorem Takes.carried {e : Engine} {note : Notification} {n m : WorkflowNode}
    (ht : e.Takes note n m) (h : e.Steady) :
    ∃ x calls e', e' = (e.settled note m x calls).registering (e.workflows.registrations note m x) ∧
      (handle note).go e = (.ok ⟨m.id, n.state, m.state, (e.workflows.unlockedBy m).map (·.id),
        x.status.after m.terminal m.state⟩, e') ∧
      e'.workflows.nodes.get? note.nodeId = some m := by
  obtain ⟨x, calls, hx, hid, hgo⟩ := handle_taken h.sound h.unfaulted ht
  refine ⟨x, calls, _, rfl, hgo, ?_⟩
  rw [(ht.advanced h.sound h.coherent (hid ▸ hx) calls).workflows.nodes, ht.node,
    Lookup.advance_self]

/-- **All or nothing.** A notification is handled in an engine that is reached, whatever happened
there before.  If its handling fails, the notification names no lifecycle, or no node, or a state
that the node may not advance to, and nothing has changed but the number of calls to the store of
workflows.  Otherwise none of these is so, and all that follows from the notification is done. -/
theorem handle_all_or_nothing {containers notifications : Nat} {admits : Engine → Op → Prop}
    {e : Engine} (h : Reaches admits (ofCapacity containers notifications) e)
    (note : Notification) :
    (handle note).Ends e
      (fun p e' => (∀ f, ¬ note.Refused e.workflows.nodes.get? f) ∧
        ∃ n m x calls, e.Takes note n m ∧ e.workflows.instances.get? m.owner.instanceId = some x ∧
          p = ⟨m.id, n.state, m.state, (e.workflows.unlockedBy m).map (·.id),
            x.status.after m.terminal m.state⟩ ∧
          e' = (e.settled note m x calls).registering (e.workflows.registrations note m x))
      (fun f e' => note.Refused e.workflows.nodes.get? f ∧
        f.category ∈ [.unrecognizedState, .notFound, .validation] ∧
        e'.workflows = { e.workflows with calls := e'.workflows.calls } ∧
        e'.workshop = e.workshop ∧ e'.instancesMade = e.instancesMade) := by
  have hsteady := (steady_ofCapacity containers notifications).reaches h
  have hhandled := handle_handled hsteady.sound hsteady.unfaulted note
  unfold Act.Ends
  revert hhandled
  rcases (handle note).go e with ⟨f | p, e'⟩
  · intro hhandled
    cases hhandled with
    | refused hr => exact ⟨hr, hr.category, rfl, rfl, rfl⟩
  · intro hhandled
    cases hhandled with
    | carried ht hx hid =>
        refine ⟨fun f hr => ?_, _, _, _, _, ht, hx, rfl, rfl⟩
        -- a node takes no notification that is refused
        have hno := WorkflowNode.take?_of_refused hr (ht.node ▸ ht.found)
        exact nomatch hno.symm.trans ht.taken

/-- The news that a payment is complete, for the first instance that an engine makes. -/
def paid : Notification := ⟨⟨"$1-pay"⟩, some "COMPLETED", none, none, {}⟩

/-- While the form of a permit is open, the wait for its payment may not be completed, and the news
that it is changes nothing. -/
theorem handle_all_or_nothing_opened :
    ∃ e', (handle paid).go opened = (.error (.cannotAdvance ⟨"$1-pay"⟩ .locked .completed), e') ∧
      e'.workshop = opened.workshop ∧ e'.workflows.nodes = opened.workflows.nodes ∧
      e'.workflows.instances = opened.workflows.instances := by
  have hstate : (opened.workflows.nodes.get? ⟨"$1-pay"⟩).map (fun n => (n.id, n.state)) =
      some (⟨"$1-pay"⟩, .locked) := by
    cbv
  obtain ⟨n, hn, hshows⟩ := Option.map_eq_some_iff.mp hstate
  obtain ⟨hid, hlocked⟩ := Prod.mk.inj hshows
  have hrefused : paid.Refused opened.workflows.nodes.get?
      (.cannotAdvance ⟨"$1-pay"⟩ .locked .completed) := by
    rw [← hid, ← hlocked]
    exact .cannotAdvance hn (Notification.asks_eq (l := .completed) rfl n) (by rw [hlocked]; rfl)
  have hreach : Reaches (fun _ _ => True) (ofCapacity 1 1) opened :=
    .step (.step .refl _ trivial) .deliver trivial
  have h := handle_all_or_nothing hreach paid
  unfold Act.Ends at h
  revert h
  rcases hgo : (handle paid).go opened with ⟨f | p, e'⟩
  · rintro ⟨hr, -, hworkflows, hworkshop, -⟩
    obtain rfl := hr.unique hrefused
    refine ⟨e', rfl, hworkshop, ?_, ?_⟩
    · rw [hworkflows]
    · rw [hworkflows]
  · rintro ⟨hno, -⟩
    exact absurd hrefused (hno _)

end Engine

end Clearance
