import Clearance.Proofs.Engine.Founding
import Clearance.Proofs.Engine.Refusal

/-!
# Clearance — Proofs — Engine — The context of an instance over a run

* `Context.overlay`: a context overlaid by notifications one after the other, of which the last that
  binds a key wins (`Context.get?_overlay`).
* `Engine.Op.accepted`: the notification that an operation has handled with success, and what that
  changed.
* `Engine.takenFor`: the notifications that a run accepts for the nodes of an instance.
* `Engine.Course.overlaid`: an operation overlays the context of an instance by those it accepts for
  it.
* `Engine.Made.overlaid`: so does a run, beginning with the context that the instance was made with.
-/

namespace Clearance

namespace Context

/-- The context overlaid by the updates of notifications, one after the other. -/
def overlay (c : Context) (notes : List Notification) : Context :=
  notes.foldl (fun c note => c.merge note.contextUpdates) c

theorem overlay_append (c : Context) (notes more : List Notification) :
    c.overlay (notes ++ more) = (c.overlay notes).overlay more :=
  List.foldl_append

/-- A key has the value that the last notification to bind it gives it. -/
theorem get?_overlay (c : Context) (notes : List Notification) (key : String) :
    (c.overlay notes).get? key =
      (notes.reverse.findSome? (·.contextUpdates.get? key)).or (c.get? key) := by
  induction notes using List.reverseRecOn with
  | nil => rfl
  | append_singleton notes note ih =>
      have hlast : c.overlay (notes ++ [note]) = (c.overlay notes).merge note.contextUpdates := by
        rw [overlay_append]
        rfl
      rw [hlast, get?_merge, ih, List.reverse_append, List.reverse_singleton,
        List.singleton_append, List.findSome?_cons]
      cases note.contextUpdates.get? key with
      | none => rfl
      | some value => rfl

end Context

namespace Engine

open WorkflowStore Workshop

/-! ### Accepted notifications -/

/-- The notification that the operation has handled with success, and what it changed. -/
def Op.accepted (e : Engine) : Op → Option (Notification × Progress)
  | .deliver =>
    match e.receive with
    | (some note, e) => ((handle note).go e).1.toOption.map fun p => (note, p)
    | (none, _) => none
  | .notify note => ((handle note).go e).1.toOption.map fun p => (note, p)
  | _ => none

/-- The notifications that the operation accepts for nodes of the instance: one, or none. -/
def Op.takenFor (i : InstanceId) (e : Engine) (op : Op) : List Notification :=
  ((op.accepted e).toList.map Prod.fst).filter fun note =>
    (e.workflows.nodes.get? note.nodeId).any (·.owner.instanceId == i)

/-- The notifications that a run accepts for nodes of the instance, in the order in which they are
handled. -/
def takenFor (i : InstanceId) (e : Engine) : List Op → List Notification
  | [] => []
  | op :: rest => op.takenFor i e ++ takenFor i (op.perform e).2 rest

theorem takenFor_snoc (i : InstanceId) (e : Engine) (ops : List Op) (op : Op) :
    takenFor i e (ops ++ [op]) = takenFor i e ops ++ op.takenFor i (after ops e) := by
  induction ops generalizing e with
  | nil => exact List.append_nil _
  | cons first rest ih =>
      rw [List.cons_append, takenFor, ih, takenFor, List.append_assoc]
      rfl

theorem Op.Brings.accepted {op : Op} {note : Notification} {e e₁ : Engine}
    (h : op.Brings note e e₁) :
    ∃ e₂, op.Brings note e e₂ ∧
      op.accepted e = ((handle note).go e₂).1.toOption.map fun p => (note, p) := by
  cases op with
  | deliver =>
      have ht : Took note e e₁ := h
      rcases receive_eq e with ⟨hq, -⟩ | ⟨note', e₂, ht', he⟩
      · exact nomatch hq.symm.trans ht.queue
      · obtain ⟨rfl, -⟩ := List.cons.inj (ht'.queue.symm.trans ht.queue)
        refine ⟨e₂, ht', ?_⟩
        rw [Op.accepted, he]
  | notify k =>
      obtain ⟨rfl, rfl⟩ := h
      exact ⟨e₁, ⟨rfl, rfl⟩, rfl⟩
  | _ => exact h.elim

section Accepted

variable {e e₁ : Engine} {op : Op} {note : Notification} {n m : WorkflowNode}

/-- What there is a reason to refuse is not accepted. -/
theorem Op.Brings.accepted_eq_none {f : Failure} (h : op.Brings note e e₁) (he : e.Steady)
    (hr : note.Refused e.workflows.nodes.get? f) : op.accepted e = none := by
  obtain ⟨e₂, hop, haccepted⟩ := h.accepted
  have h₂ := he.brings hop
  obtain ⟨calls, hgo⟩ := handle_refused h₂.sound h₂.unfaulted (hop.rest.1 ▸ hr)
  rw [haccepted, hgo]
  rfl

/-- What a node takes is accepted, and unlocks the dependents that the node unlocks. -/
theorem Op.Brings.accepted_eq_some (h : op.Brings note e e₁) (he : e.Steady)
    (ht : e.Takes note n m) :
    ∃ p, op.accepted e = some (note, p) ∧ p.unlocked = (e.workflows.unlockedBy m).map (·.id) := by
  obtain ⟨e₂, hop, haccepted⟩ := h.accepted
  have h₂ := he.brings hop
  have hsame := hop.rest.1
  obtain ⟨x, calls, -, -, hgo⟩ := handle_taken h₂.sound h₂.unfaulted (ht.of_nodes (by rw [hsame]))
  rw [haccepted, hgo, hsame]
  exact ⟨_, rfl, rfl⟩

theorem Op.takenFor_of_none {i : InstanceId} (h : op.accepted e = none) : op.takenFor i e = [] := by
  rw [takenFor, h]
  rfl

/-- A notification that a node takes is taken for the instance of the node, and for no other. -/
theorem Takes.takenFor (ht : e.Takes note n m) (i : InstanceId) {p : Progress}
    (h : op.accepted e = some (note, p)) :
    op.takenFor i e = if m.owner.instanceId = i then [note] else [] := by
  rw [Op.takenFor, h]
  simp only [Option.toList_some, List.map_cons, List.map_nil, List.filter_cons, List.filter_nil,
    ht.node, ht.found, Option.any_some, beq_iff_eq, ht.onward.kin.owner_eq]

/-- For an instance that is not there, nothing is accepted. -/
theorem takenFor_of_absent (he : e.Steady) {i : InstanceId}
    (hi : e.workflows.instances.get? i = none) (op : Op) : op.takenFor i e = [] := by
  rw [Op.takenFor, List.filter_eq_nil_iff]
  intro note _ howned
  obtain ⟨n, hn, hid⟩ := (Option.any_eq_true _ _).mp howned
  -- the node would be owned by an instance that is there
  obtain ⟨x, hx, -, -⟩ := owner?_eq_some (he.sound.owned _ n hn)
  rw [eq_of_beq hid, hi] at hx
  cases hx

end Accepted

/-! ### One operation -/

/-- **One overlay.** An operation overlays the context of an instance by what it accepts for it. -/
theorem Course.overlaid {e e' : Engine} {op : Op} {as : List Activation} (hc : Course e op as e')
    (he : e.Steady) {i : InstanceId} {x : WorkflowInstance}
    (hx : e.workflows.instances.get? i = some x) :
    ∃ x', e'.workflows.instances.get? i = some x' ∧
      x'.globalContext = x.globalContext.overlay (op.takenFor i e) := by
  have hsame : e'.workflows.instances = e.workflows.instances → op.accepted e = none →
      ∃ x', e'.workflows.instances.get? i = some x' ∧
        x'.globalContext = x.globalContext.overlay (op.takenFor i e) := by
    intro hi hnone
    rw [Op.takenFor_of_none hnone, hi]
    exact ⟨x, hx, rfl⟩
  cases hc with
  | invalid _ => exact hsame rfl rfl
  | conflicting _ _ => exact hsame rfl rfl
  | aborted _ _ _ => exact hsame rfl rfl
  | @founded _ _ _ c _ _ _ _ hconflict _ =>
      have hne : i ≠ c.inst.id := by
        rintro rfl
        exact nomatch (new_of_conflict? hconflict).1.symm.trans hx
      exact ⟨x, (Table.get?_insert_ne _ _ hne).trans hx, rfl⟩
  | idle hq =>
      refine hsame rfl ?_
      rw [Op.accepted, Engine.receive, Mailbox.take?, hq]
  | refused hop hr hw =>
      refine hsame ?_ (hop.accepted_eq_none he hr)
      rw [hw.workflows, asked, hop.rest.1]
  | @carried _ note n m y e₁ _ calls hop ht hy hid hw =>
      obtain ⟨p, haccepted, -⟩ := hop.accepted_eq_some he ht
      rw [ht.takenFor i haccepted, hw.workflows]
      have hget : ((e₁.settled note m y calls).workflows.instances.get? i) =
          if i = y.id then some (y.take note m) else e.workflows.instances.get? i := by
        rw [settled, settle, hop.rest.1]
        exact Table.get?_insert _ _ _ _
      by_cases hi : m.owner.instanceId = i
      · rw [if_pos hi]
        rw [hi, hx] at hy
        obtain rfl := Option.some.inj hy
        exact ⟨_, hget.trans (if_pos (hi.symm.trans hid.symm)), rfl⟩
      · rw [if_neg hi]
        exact ⟨x, hget.trans ((if_neg fun h => hi (hid.symm.trans h.symm)).trans hx), rfl⟩
  | outside hop =>
      refine hsame rfl ?_
      cases op with
      | create => exact hop.elim
      | deliver => exact hop.elim
      | notify => exact hop.elim
      | _ => rfl

/-! ### A run -/

/-- For an instance that is not there yet, nothing has been accepted. -/
theorem takenFor_eq_nil {e : Engine} (he : e.Steady) {ops : List Op} {i : InstanceId}
    (hi : (after ops e).workflows.instances.get? i = none) : takenFor i e ops = [] := by
  induction ops using List.reverseRecOn with
  | nil => rfl
  | append_singleton ops op ih =>
      rw [after_append] at hi
      obtain ⟨as, hc⟩ := exists_course (he.after ops) op
      have hbefore : (after ops e).workflows.instances.get? i = none := by
        rw [Option.eq_none_iff_forall_ne_some]
        intro x hx
        obtain ⟨x', hx', -⟩ := hc.overlaid (he.after ops) hx
        exact nomatch hi.symm.trans hx'
      rw [takenFor_snoc, ih hbefore, takenFor_of_absent (he.after ops) hbefore op]
      rfl

/-- **The context of an instance.** It is the one that the instance was made with, overlaid by all
that was accepted for its nodes. -/
theorem Made.overlaid {e : Engine} (he : e.Steady) {ops : List Op} {kind : InstanceKind}
    {d : WorkflowDefinition} {globalContext : Context} {c : Created}
    (h : Made e ops kind d globalContext c) :
    ∃ x, (after ops e).workflows.instances.get? c.inst.id = some x ∧
      x.globalContext = globalContext.overlay (takenFor c.inst.id e ops) := by
  induction ops using List.reverseRecOn with
  | nil =>
      obtain ⟨_, _, _, hnil, -⟩ := h
      simp at hnil
  | append_singleton ops op ih =>
      obtain ⟨as, hc⟩ := exists_course (he.after ops) op
      rw [after_append, takenFor_snoc, Context.overlay_append]
      rcases made_snoc.mp h with hbefore | hmakes
      · obtain ⟨x, hx, hcontext⟩ := ih hbefore
        rw [← hcontext]
        exact hc.overlaid (he.after ops) hx
      · obtain ⟨hfounded, hd⟩ := hmakes.founded (he.after ops)
        have habsent := (new_of_conflict? hfounded.conflict).1
        rw [takenFor_eq_nil he habsent, takenFor_of_absent (he.after ops) habsent]
        refine ⟨c.inst, ?_, congrArg (·.inst.globalContext) hd⟩
        rw [hfounded.workflows]
        exact Table.get?_insert_self _ _ _

end Engine

end Clearance
