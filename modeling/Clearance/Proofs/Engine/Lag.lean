import Clearance.Proofs.Engine.Onward
import Clearance.Proofs.Engine.Tolerance

/-!
# Clearance — Proofs — Engine — Tasks that get ahead of their nodes

A client may activate the task of a node that is locked, and work on it.  The node refuses to hear
of that, and nobody tells it again once it is unlocked.

* `Workshop.Leading`: what is queued for a node leads to where its task is.
* `Workshop.Follows`: an open node is tracked, or it is ready with nothing queued, while its task
  stands where the task of such a node may.
* `Engine.Effect.leading`, `Engine.Effect.follows`: both are kept while no notification is lost.
* `Engine.Effect.opens`: and a node follows its task from when it is unlocked or made.
* `Engine.lags_only_if_ahead`: so a node shows where its task is, or the task got there before the
  node was unlocked.
-/

namespace Clearance

/-- A node that is open takes notifications that its task is in progress, and then one more. -/
theorem WorkflowNode.replay?_of_open {n : WorkflowNode} (hn : n.state ≠ .locked)
    (ht : n.state.isTerminal = false) {before : List Notification}
    (hbefore : ∀ note ∈ before, note.lifecycle = some Lifecycle.inProgress.text)
    {last : Notification} {l : Lifecycle} {x : String} (hlast : last.lifecycle = some l.text)
    (hx : last.extendedState = some x) (hl : l ≠ .initialized) :
    ∃ n', n.replay? (before ++ [last]) = some n' ∧
      (n'.state, n'.extendedState) = (.ofLifecycle l, some x) := by
  induction before generalizing n with
  | nil =>
      refine ⟨n.advance (.ofLifecycle l) last, ?_, ?_⟩
      · rw [List.nil_append, replay?, List.foldlM_cons, take?_of_open hn ht hlast hl]
        rfl
      · rw [advance, hx]
        rfl
  | cons note rest ih =>
      obtain ⟨hnote, hrest⟩ := List.forall_mem_cons.mp hbefore
      -- the node is in progress then, so it is open still
      have hm := take?_of_open hn ht hnote (l := .inProgress) (by decide)
      have hopen : NodeState.ofLifecycle .inProgress ≠ .locked := by decide
      obtain ⟨n', hreplay, hshows⟩ :=
        ih (n := n.advance (.ofLifecycle .inProgress) note) hopen rfl hrest
      refine ⟨n', ?_, hshows⟩
      rw [List.cons_append, replay?, List.foldlM_cons, hm]
      exact hreplay

namespace Workshop

/-! ### What is queued for a node -/

/-- What is queued for the node says that its task is in progress, any number of times, and in the
end where the task is now. -/
structure Trail (w : Workshop) (id : NodeId) (before : List Notification) (last : Notification)
    (l : Lifecycle) (x : String) : Prop where
  queued : w.queuedFor id = before ++ [last]
  progress : ∀ note ∈ before, note.lifecycle = some Lifecycle.inProgress.text
  lifecycle : last.lifecycle = some l.text
  extendedState : last.extendedState = some x
  started : l ≠ .initialized
  stands : w.standing id = (.ofLifecycle l, some x)

/-- Nothing is queued for the node, or such a trail. -/
def Leading (w : Workshop) (id : NodeId) : Prop :=
  w.queuedFor id = [] ∨ ∃ before last l x, w.Trail id before last l x

/-- The node is tracked.  Or it is ready with nothing queued, while its task stands where `P`
allows. -/
inductive Follows (w : Workshop) (id : NodeId) (P : NodeState × Option String → Prop)
    (n : WorkflowNode) : Prop
  | tracked (h : w.Tracked id n) : Follows w id P n
  | resting (hn : (n.state, n.extendedState) = (.ready, none)) (hq : w.queuedFor id = [])
      (hs : P (w.standing id)) : Follows w id P n

section Following

variable {w w' : Workshop} {id k : NodeId} {n : WorkflowNode} {Q : NodeId → Prop}
  {P P' : NodeState × Option String → Prop}

theorem Leading.of_eq (h : w.Leading id) (hst : w'.standing id = w.standing id)
    (hq : w'.queuedFor id = w.queuedFor id) : w'.Leading id := by
  rcases h with hsilent | ⟨before, last, l, x, ht⟩
  · exact .inl (hq.trans hsilent)
  · exact .inr ⟨before, last, l, x, hq.trans ht.queued, ht.progress, ht.lifecycle,
      ht.extendedState, ht.started, hst.trans ht.stands⟩

/-- A task that moves on has not ended, so all that was queued says that it is in progress. -/
theorem Leading.movesOn {note : Notification} {l : Lifecycle} {x : String} (h : w.Leading k)
    (hm : MovesOn k w w' note l x) (hd : w'.dropped = 0) : w'.Leading k := by
  refine .inr ⟨w.queuedFor k, note, l, x, hm.queuedFor_self (hm.accepts hd), fun other hother => ?_,
    hm.lifecycle, hm.extendedState, hm.started, hm.standing⟩
  rcases h with hsilent | ⟨before, last, j, y, ht⟩
  · rw [hsilent] at hother
    cases hother
  · obtain rfl : j = .inProgress := by
      have hopen := NodeState.not_terminal_of_canAdvanceTo hm.legal
      rw [ht.stands, NodeState.isTerminal_ofLifecycle] at hopen
      cases j with
      | initialized => exact absurd rfl ht.started
      | inProgress => rfl
      | completed => cases hopen
      | failed => cases hopen
    rw [ht.queued] at hother
    rcases List.mem_append.mp hother with hmem | hmem
    · exact ht.progress other hmem
    · rw [List.mem_singleton.mp hmem]
      exact ht.lifecycle

theorem Leading.serves (h : w.Leading id) (hs : Serves k w w') (hd : w'.dropped = 0) :
    w'.Leading id := by
  by_cases hid : id = k
  · subst hid
    rcases hs.outcome with hstill | ⟨note, l, x, hm⟩
    · exact h.of_eq hstill.standing (by rw [queuedFor, queuedFor, hstill.mailbox])
    · exact h.movesOn hm hd
  · exact h.of_eq (standing_congr (hs.elsewhere id hid)) (hs.queuedFor_ne hid)

theorem Leading.served (h : w.Leading id) (hs : Served Q w w') (hd : w'.dropped = 0) :
    w'.Leading id :=
  hs.undropped (I := fun w => w.Leading id) hd h (fun hs hd hl => hl.serves hs hd)
    fun _ hl => hl.of_eq rfl rfl

/-- A node that is just ready follows its task, and rests only if nothing was queued. -/
theorem Leading.follows (h : w.Leading id) (hn : (n.state, n.extendedState) = (.ready, none)) :
    w.Follows id (fun s => w.queuedFor id = [] ∧ w.standing id = s) n := by
  rcases h with hsilent | ⟨before, last, l, x, ht⟩
  · exact .resting hn hsilent ⟨hsilent, rfl⟩
  · have hready : n.state = .ready := congrArg Prod.fst hn
    obtain ⟨n', hreplay, hshows⟩ := n.replay?_of_open (by rw [hready]; decide) (by rw [hready]; rfl)
      ht.progress ht.lifecycle ht.extendedState ht.started
    exact .tracked ⟨n', ht.queued ▸ hreplay, hshows.trans ht.stands.symm⟩

theorem Follows.mono (h : w.Follows id P n) (hP : ∀ s, P s → P' s) : w.Follows id P' n := by
  cases h with
  | tracked ht => exact .tracked ht
  | resting hn hq hs => exact .resting hn hq (hP _ hs)

theorem Follows.of_eq (h : w.Follows id P n)
    (hr : w'.store.records.get? id = w.store.records.get? id)
    (hq : w'.queuedFor id = w.queuedFor id) : w'.Follows id P n := by
  cases h with
  | tracked ht => exact .tracked (ht.of_eq hr hq)
  | resting hn hsilent hs => exact .resting hn (hq.trans hsilent) (standing_congr hr ▸ hs)

/-- A ready node that is told of a move of its task is tracked from then on. -/
theorem Follows.serves (h : w.Follows id P n) (hs : Serves k w w') (hd : w'.dropped = 0) :
    w'.Follows id P n := by
  cases h with
  | tracked ht => exact .tracked (ht.serves hs hd)
  | resting hn hsilent hP =>
      by_cases hid : id = k
      · subst hid
        rcases hs.outcome with hstill | ⟨note, l, x, hm⟩
        · refine .resting hn ?_ (hstill.standing ▸ hP)
          rw [queuedFor, hstill.mailbox]
          exact hsilent
        · have hleads := (Leading.movesOn (.inl hsilent) hm hd).follows hn
          cases hleads with
          | tracked ht => exact .tracked ht
          | resting _ hq _ =>
              rw [hm.queuedFor_self (hm.accepts hd)] at hq
              exact absurd (List.append_eq_nil_iff.mp hq).2 (List.cons_ne_nil _ _)
      · exact (Follows.resting hn hsilent hP).of_eq (hs.elsewhere id hid) (hs.queuedFor_ne hid)

theorem Follows.served (h : w.Follows id P n) (hs : Served Q w w') (hd : w'.dropped = 0) :
    w'.Follows id P n :=
  hs.undropped (I := fun w => w.Follows id P n) hd h (fun hs hd hf => hf.serves hs hd)
    fun _ hf => hf.of_eq rfl rfl

/-- With nothing queued, a node that follows its task shows where it is, or rests. -/
theorem Follows.arrived (h : w.Follows id P n) (hq : w.mailbox.queue = []) :
    (n.state, n.extendedState) = w.standing id ∨
      (n.state, n.extendedState) = (.ready, none) ∧ P (w.standing id) := by
  cases h with
  | tracked ht => exact .inl (ht.arrived hq)
  | resting hn _ hs => exact .inr ⟨hn, hs⟩

theorem standing_eq_or (w : Workshop) (id : NodeId) :
    w.standing id = (.ready, none) ∨
      ∃ r, w.store.records.get? id = some r ∧ r.state ≠ .initialized := by
  cases hr : w.store.records.get? id with
  | none => exact .inl (standing_of_none hr)
  | some r =>
      by_cases hs : r.state = .initialized
      · exact .inl ((standing_of_get? hr).trans (if_pos hs))
      · exact .inr ⟨r, rfl, hs⟩

end Following

end Workshop

namespace Engine

open WorkflowStore Workshop

/-- An operation that brings no notification but those that are queued, and throws none of these
away. -/
def Op.Faithful : Op → Prop
  | .notify _ | .discard => False
  | _ => True

theorem Op.Faithful.queuedOnly {op : Op} (h : op.Faithful) : op.QueuedOnly := by
  cases op with
  | notify _ => exact h.elim
  | _ => trivial

section Effects

variable {e e₁ e' : Engine} {op : Op} {note : Notification} {id : NodeId} {n n' : WorkflowNode}
  {P : NodeState × Option String → Prop}

theorem Took.leading (ht : Took note e e₁) (h : e.workshop.Leading id) : e₁.workshop.Leading id := by
  have hst : e₁.workshop.standing id = e.workshop.standing id :=
    standing_congr (by rw [ht.records])
  by_cases hid : id = note.nodeId
  · subst hid
    rcases h with hsilent | ⟨before, last, l, x, hl⟩
    · exact absurd rfl (ht.ne_of_silent hsilent)
    · have hq := ht.queuedFor_self.symm.trans hl.queued
      cases before with
      | nil => exact .inl (List.cons.inj hq).2
      | cons _ rest =>
          exact .inr ⟨rest, last, l, x, (List.cons.inj hq).2,
            (List.forall_mem_cons.mp hl.progress).2, hl.lifecycle, hl.extendedState, hl.started,
            hst.trans hl.stands⟩
  · exact h.of_eq hst (ht.queuedFor_ne hid)

/-- What is queued leads to where the tasks are, while nothing is lost. -/
theorem Effect.leading (he : Effect e op e') (hop : op.Faithful) (hd : e'.workshop.dropped = 0)
    (h : ∀ id, e.workshop.Leading id) (id : NodeId) : e'.workshop.Leading id := by
  cases he with
  | created k _ => exact (h id).served k.workshop hd
  | uncreated _ hw => exact (h id).served hw hd
  | activated k => exact (h id).serves k hd
  | served k _ => exact (h id).serves k hd
  | advanced hb _ k => exact ((hop.queuedOnly.took hb).leading (h id)).served k.workshop hd
  | refused hb _ _ hw => exact ((hop.queuedOnly.took hb).leading (h id)).served hw hd
  | idle => exact h id
  | outside k hq =>
      exact (h id).of_eq (standing_congr (by rw [k.records])) (by rw [queuedFor, queuedFor, hq])
  | discarded _ _ => exact hop.elim

/-- A node that does not take a notification has others queued, and goes on following its task. -/
theorem Took.follows (ht : Took note e e₁) (h : e.workshop.Follows id P n)
    (hno : id = note.nodeId → n.take? note = none) : e₁.workshop.Follows id P n := by
  refine h.of_eq (by rw [ht.records]) (ht.queuedFor_ne ?_)
  rintro rfl
  cases h with
  | tracked htracked =>
      obtain ⟨m, hm, -⟩ := ht.tracked htracked
      cases (hno rfl).symm.trans hm
  | resting _ hsilent _ => exact ht.ne_of_silent hsilent rfl

/-- A node that is not locked is found again and follows its task, while nothing is lost. -/
theorem Effect.follows (he : Effect e op e') (hop : op.Faithful) (hd : e'.workshop.dropped = 0)
    (hn : e.workflows.nodes.get? id = some n) (hl : n.state ≠ .locked)
    (h : e.workshop.Follows id P n) :
    ∃ n', e'.workflows.nodes.get? id = some n' ∧ e'.workshop.Follows id P n' := by
  cases he with
  | created k _ => exact ⟨n, k.get?_eq_some.mpr (.inr hn), h.served k.workshop hd⟩
  | uncreated hs hw => exact ⟨n, hs.get?_eq ▸ hn, h.served hw hd⟩
  | activated k => exact ⟨n, hn, h.serves k hd⟩
  | served k _ => exact ⟨n, hn, h.serves k hd⟩
  | @advanced _ _ _ _ x m hb ht k =>
      have htook := hop.queuedOnly.took hb
      have hlook := k.workflows.nodes id
      rw [hb.rest.1] at hlook
      by_cases hid : id = m.id
      · rw [hid, Lookup.advance_self] at hlook
        rw [hid, ht.found] at hn
        obtain rfl := Option.some.inj hn
        rw [hid] at h ⊢
        refine ⟨m, hlook, ?_⟩
        cases h with
        | tracked htracked =>
            obtain ⟨m', hm', hnext⟩ := htook.tracked (ht.node ▸ htracked)
            obtain rfl := Option.some.inj (ht.taken.symm.trans hm')
            exact (Follows.tracked (ht.node ▸ hnext)).served k.workshop hd
        | resting _ hsilent _ => exact absurd ht.node.symm (htook.ne_of_silent hsilent)
      · rw [Lookup.advance_of_ne_locked hn hid hl] at hlook
        have hnext := htook.follows h fun heq => absurd (heq.trans ht.node) hid
        exact ⟨n, hlook, hnext.served k.workshop hd⟩
  | refused hb hno hs hw =>
      have hnext := (hop.queuedOnly.took hb).follows h fun heq => hno n (heq ▸ hn)
      exact ⟨n, hs.get?_eq ▸ hn, hnext.served hw hd⟩
  | idle => exact ⟨n, hn, h⟩
  | outside k hq => exact ⟨n, hn, h.of_eq (by rw [k.records]) (by rw [queuedFor, queuedFor, hq])⟩
  | discarded _ _ => exact hop.elim

/-- A node that was locked or is new, and is not locked after an operation, follows its task.  It
rests only where the task stood before, with nothing queued. -/
theorem Effect.opens (he : Effect e op e') (hop : op.Faithful) (hd : e'.workshop.dropped = 0)
    (hg : e.Gating) (h : e.workshop.Leading id)
    (hbefore : ∀ k, e.workflows.nodes.get? id = some k → k.state = .locked)
    (hn' : e'.workflows.nodes.get? id = some n') (hl : n'.state ≠ .locked) :
    e'.workshop.Follows id
      (fun s => e.workshop.queuedFor id = [] ∧ e.workshop.standing id = s) n' := by
  cases he with
  | created k _ =>
      rcases k.get?_eq_some.mp hn' with ⟨hmem, -⟩ | hold
      · have hready : (n'.state, n'.extendedState) = (.ready, none) :=
          Prod.ext (k.well.ready hmem hl) (k.well.extendedState _ hmem)
        exact (h.follows hready).served k.workshop hd
      · exact absurd (hbefore _ hold) hl
  | @advanced _ note _ _ _ _ hb ht k =>
      have htook := hop.queuedOnly.took hb
      have hlook := (k.workflows.nodes id).symm.trans hn'
      rw [hb.rest.1] at hlook
      rcases Lookup.of_advance hlook with ⟨rfl, rfl⟩ | ⟨y, hid, hy, ⟨rfl, -⟩ | ⟨rfl, -⟩⟩
      · -- a locked node takes none of the notifications that are queued
        have hannounced := hg.announced _ (hop.queuedOnly.mem_queue hb)
        exact absurd (hbefore _ ht.found) (hannounced.not_locked ht.taken)
      · exact absurd (hbefore _ hy) hl
      · have hx := (hg.steady.sound.fit id y hy).locked (hbefore y hy)
        have hready : (y.opened.state, y.opened.extendedState) = (.ready, none) :=
          Prod.ext rfl hx
        have hnone : id = note.nodeId → y.opened.take? note = none :=
          fun heq => absurd (heq.trans ht.node) hid
        exact (htook.follows (h.follows hready) hnone).served k.workshop hd
  | uncreated hs _ => exact absurd (hbefore _ (hs.get?_eq ▸ hn')) hl
  | refused _ _ hs _ => exact absurd (hbefore _ (hs.get?_eq ▸ hn')) hl
  | activated _ => exact absurd (hbefore _ hn') hl
  | served _ _ => exact absurd (hbefore _ hn') hl
  | idle => exact absurd (hbefore _ hn') hl
  | outside _ _ => exact absurd (hbefore _ hn') hl
  | discarded _ _ => exact hop.elim

/-- A ready node whose task has ended, with nothing queued, stays ready. -/
theorem Effect.stays_ready (he : Effect e op e') (hop : op.Faithful) (h : e.workshop.Closed id)
    (hn : e.workflows.nodes.get? id = some n) (hready : n.state = .ready) :
    ∃ n', e'.workflows.nodes.get? id = some n' ∧ n'.state = .ready := by
  obtain ⟨n', hn', ho⟩ := he.onward id n hn
  refine ⟨n', hn', ?_⟩
  cases he.origin hn' with
  | kept hold =>
      obtain rfl := Option.some.inj (hn.symm.trans hold)
      exact hready
  | ready hstate => exact hstate
  | drafted _ _ hl => exact absurd hl (ho.not_locked (by rw [hready]; decide))
  | advanced hid hb ht _ =>
      exact absurd (hid.trans ht.node.symm) ((hop.queuedOnly.took hb).ne_of_silent h.silent)

end Effects

/-! ### A whole run -/

/-- On the way from `start` to `e`, there was an engine in which the node was locked or not made
yet and nothing was queued for it, while its task stood at `s`. -/
def Ahead (start e : Engine) (id : NodeId) (s : NodeState × Option String) : Prop :=
  ∃ e₀, Reaches (fun _ op => op.Faithful) start e₀ ∧ Reaches (fun _ op => op.Faithful) e₀ e ∧
    (∀ k, e₀.workflows.nodes.get? id = some k → k.state = .locked) ∧
    e₀.workshop.queuedFor id = [] ∧ e₀.workshop.standing id = s

theorem Ahead.step {start e : Engine} {id : NodeId} {s : NodeState × Option String}
    (h : start.Ahead e id s) {op : Op} (hop : op.Faithful) : start.Ahead (op.perform e).2 id s := by
  obtain ⟨e₀, h₀, hrest, hbefore⟩ := h
  exact ⟨e₀, h₀, .step hrest op hop, hbefore⟩

/-- What is queued leads to where the tasks are, and every node that is not locked follows its task.
It rests only if the task was ahead. -/
structure Lagging (start e : Engine) : Prop where
  reached : Reaches (fun _ op => op.Faithful) start e
  gating : e.Gating
  leading : e.workshop.dropped = 0 → ∀ id, e.workshop.Leading id
  follows : e.workshop.dropped = 0 → ∀ id n, e.workflows.nodes.get? id = some n →
    n.state ≠ .locked → e.workshop.Follows id (start.Ahead e id) n

theorem lagging_ofCapacity (containers notifications : Nat) :
    (ofCapacity containers notifications).Lagging (ofCapacity containers notifications) where
  reached := .refl
  gating := gating_ofCapacity containers notifications
  leading _ _ := .inl rfl
  follows _ _ _ h := nomatch h

/-- Every faithful operation keeps it so. -/
theorem Lagging.perform {start e : Engine} (h : start.Lagging e) {op : Op} (hop : op.Faithful) :
    start.Lagging (op.perform e).2 := by
  have he := effect_perform h.gating.steady op
  have hdrop : (op.perform e).2.workshop.dropped = 0 → e.workshop.dropped = 0 :=
    fun hd => Nat.le_zero.mp (hd ▸ he.dropped_le)
  refine ⟨.step h.reached op hop, h.gating.effect hop.queuedOnly he,
    fun hd => he.leading hop hd (h.leading (hdrop hd)), fun hd id n' hn' hl => ?_⟩
  by_cases hbefore : ∀ k, e.workflows.nodes.get? id = some k → k.state = .locked
  · refine (he.opens hop hd h.gating (h.leading (hdrop hd) id) hbefore hn' hl).mono fun s hs => ?_
    exact ⟨e, h.reached, .step .refl op hop, hbefore, hs⟩
  · obtain ⟨n, hn⟩ := not_forall.mp hbefore
    obtain ⟨hn, hopen⟩ := Classical.not_imp.mp hn
    obtain ⟨m, hm, hfollows⟩ := he.follows hop hd hn hopen (h.follows (hdrop hd) id n hn hopen)
    obtain rfl := Option.some.inj (hn'.symm.trans hm)
    exact hfollows.mono fun _ hs => hs.step hop

theorem Lagging.reaches {start e : Engine} (h : start.Lagging start)
    (hr : Reaches (fun _ op => op.Faithful) start e) : start.Lagging e :=
  hr.invariant h fun _ _ hop h₁ => h₁.perform hop

/-- However the engine goes on, a node follows its task from where it follows it now. -/
theorem Gating.follows_reaches {e e' : Engine} (h : e.Gating)
    (hr : Reaches (fun _ op => op.Faithful) e e') (hd : e'.workshop.dropped = 0) {id : NodeId}
    {n : WorkflowNode} (hn : e.workflows.nodes.get? id = some n) (hl : n.state ≠ .locked)
    {P : NodeState × Option String → Prop} (hf : e.workshop.Follows id P n) :
    ∃ n', e'.workflows.nodes.get? id = some n' ∧ e'.workshop.Follows id P n' := by
  have hrun : e'.workshop.dropped = 0 → ∃ n', e'.workflows.nodes.get? id = some n' ∧
      n'.state ≠ .locked ∧ e'.workshop.Follows id P n' := by
    refine h.steady.invariant (I := fun e₁ => e₁.workshop.dropped = 0 →
      ∃ n', e₁.workflows.nodes.get? id = some n' ∧ n'.state ≠ .locked ∧
        e₁.workshop.Follows id P n') hr (fun _ => ⟨n, hn, hl, hf⟩) fun _ hop he h₁ hdrop => ?_
    obtain ⟨m, hm, hopen, hfm⟩ := h₁ (Nat.le_zero.mp (hdrop ▸ he.dropped_le))
    obtain ⟨m', hm', hnext⟩ := he.follows hop hdrop hm hopen hfm
    obtain ⟨k, hk, ho⟩ := he.onward id m hm
    obtain rfl := Option.some.inj (hk.symm.trans hm')
    exact ⟨k, hm', ho.not_locked hopen, hnext⟩
  obtain ⟨n', hn', -, hnext⟩ := hrun hd
  exact ⟨n', hn', hnext⟩

/-- However the engine goes on, a ready node whose task has ended stays ready. -/
theorem Gating.ready_reaches {e e' : Engine} (h : e.Gating)
    (hr : Reaches (fun _ op => op.Faithful) e e') {id : NodeId} {n : WorkflowNode}
    (hn : e.workflows.nodes.get? id = some n) (hready : n.state = .ready)
    (hclosed : e.workshop.Closed id) :
    ∃ n', e'.workflows.nodes.get? id = some n' ∧ n'.state = .ready := by
  have hrun : e'.workshop.Closed id ∧
      ∃ n', e'.workflows.nodes.get? id = some n' ∧ n'.state = .ready := by
    refine h.steady.invariant (I := fun e₁ => e₁.workshop.Closed id ∧
      ∃ n', e₁.workflows.nodes.get? id = some n' ∧ n'.state = .ready) hr
      ⟨hclosed, n, hn, hready⟩ fun _ hop he h₁ => ?_
    obtain ⟨hc, m, hm, hmr⟩ := h₁
    exact ⟨he.closed hop.queuedOnly hc, he.stays_ready hop hc hm hmr⟩
  exact hrun.2

/-- **A node lags only behind a task that was ahead of it.** In every engine that comes of
operations that lose no notification, with whatever tasks activated by clients, a node that is not
locked shows where its task is, once nothing is queued.  Or it is ready although its task has left
the start.  Then the task was there already in an engine before, in which the node was locked or not
made yet and nothing was queued for it.  From there on the node stays ready for good if the task has
ended, and otherwise until the task is told to have moved. -/
theorem lags_only_if_ahead {containers notifications : Nat} {e : Engine}
    (h : Reaches (fun _ op => op.Faithful) (ofCapacity containers notifications) e)
    (hd : e.workshop.metrics.count .notificationDropped = 0)
    (hq : e.workshop.mailbox.queue = []) {id : NodeId} {n : WorkflowNode}
    (hn : e.workflows.nodes.get? id = some n) (hl : n.state ≠ .locked) :
    (n.state, n.extendedState) = e.workshop.standing id ∨
      (n.state, n.extendedState) = (.ready, none) ∧
        (∃ r, e.workshop.store.records.get? id = some r ∧ r.state ≠ .initialized) ∧
        (ofCapacity containers notifications).Ahead e id (e.workshop.standing id) ∧
        ∀ e', Reaches (fun _ op => op.Faithful) e e' →
          ((e.workshop.standing id).1.isTerminal = true →
            ∃ n', e'.workflows.nodes.get? id = some n' ∧ n'.state = .ready) ∧
          (e'.workshop.metrics.count .notificationDropped = 0 → e'.workshop.mailbox.queue = [] →
            ∃ n', e'.workflows.nodes.get? id = some n' ∧
              ((n'.state, n'.extendedState) = e'.workshop.standing id ∨
                (n'.state, n'.extendedState) = (.ready, none) ∧
                  e'.workshop.standing id = e.workshop.standing id)) := by
  have hall := (lagging_ofCapacity containers notifications).reaches h
  rcases (hall.follows hd id n hn hl).arrived hq with hshows | ⟨hrests, hahead⟩
  · exact .inl hshows
  rcases e.workshop.standing_eq_or id with hstart | hleft
  · exact .inl (hrests.trans hstart.symm)
  have hready : n.state = .ready := congrArg Prod.fst hrests
  have hsilent : e.workshop.queuedFor id = [] := by
    rw [queuedFor, hq]
    rfl
  refine .inr ⟨hrests, hleft, hahead, fun e' hr => ⟨fun hterm => ?_, fun hd' hq' => ?_⟩⟩
  · exact hall.gating.ready_reaches hr hn hready ⟨hsilent, hterm⟩
  · have hnow : e.workshop.Follows id (· = e.workshop.standing id) n :=
      .resting hrests hsilent rfl
    obtain ⟨n', hn', hf⟩ := hall.gating.follows_reaches hr hd' hn hl hnow
    exact ⟨n', hn', hf.arrived hq'⟩

/-- The form of a permit is open.  The wait for the payment, which is locked, is activated and
completed by a client before the form is submitted. -/
def overtaking : List Op :=
  [.create .consignment permit {}, .deliver,
    .init {} ⟨⟨"$1-pay"⟩, ⟨"$1"⟩, ⟨"pay"⟩, .waitForEvent, .obj [("event", .str "E")], {}⟩, .deliver,
    .execute {} ⟨"$1-pay"⟩ ⟨"event_received", .obj [("event", .str "E")]⟩, .deliver,
    .execute {} ⟨"$1-apply"⟩ ⟨"submit", .null⟩, .deliver]

theorem reaches_overtaking :
    Reaches (fun _ op => op.Faithful) (ofCapacity 1 1) (after overtaking (ofCapacity 1 1)) :=
  .step (.step (.step (.step (.step (.step (.step (.step .refl _ trivial) _ trivial) _ trivial) _
    trivial) _ trivial) _ trivial) _ trivial) _ trivial

theorem overtaking_run :
    let e := after overtaking (ofCapacity 1 1)
    (e.workflows.nodes.get? ⟨"$1-pay"⟩).map (·.state) = some .ready ∧
      (e.workshop.store.records.get? ⟨"$1-pay"⟩).map (·.state) = some .completed ∧
      e.workshop.metrics.count .notificationDropped = 0 ∧ e.workshop.mailbox.queue = [] ∧
      e.workshop.store.available = true := by
  simp only [overtaking, after, List.foldl_cons, List.foldl_nil, Op.perform,
    createInstance_of_valid permit_valid]
  decide +kernel

/-- The wait for the payment is ready, and stays so, since its task was completed while it was
locked. -/
theorem lags_only_if_ahead_overtaking :
    ∃ e n, e = after overtaking (ofCapacity 1 1) ∧
      e.workflows.nodes.get? ⟨"$1-pay"⟩ = some n ∧ n.state = .ready ∧
      (ofCapacity 1 1).Ahead e ⟨"$1-pay"⟩ (e.workshop.standing ⟨"$1-pay"⟩) ∧
      ∀ e', Reaches (fun _ op => op.Faithful) e e' →
        ∃ n', e'.workflows.nodes.get? ⟨"$1-pay"⟩ = some n' ∧ n'.state = .ready := by
  obtain ⟨hnode, hrecord, hd, hq, -⟩ := overtaking_run
  obtain ⟨n, hn, hready⟩ := Option.map_eq_some_iff.mp hnode
  have hstands : ((after overtaking (ofCapacity 1 1)).workshop.standing ⟨"$1-pay"⟩).1 =
      .completed :=
    (standing_fst_eq_iff (l := .completed) (by decide)).mpr (Option.map_eq_some_iff.mp hrecord)
  have hl : n.state ≠ .locked := by
    rw [hready]
    decide
  refine ⟨_, n, rfl, hn, hready, ?_⟩
  rcases lags_only_if_ahead reaches_overtaking hd hq hn hl with hshows | ⟨-, -, hahead, hlater⟩
  · cases hready.symm.trans ((congrArg Prod.fst hshows).trans hstands)
  · exact ⟨hahead, fun e' hr => (hlater e' hr).1 (by rw [hstands]; rfl)⟩

/-- Nothing was dropped and nothing is queued, the task store is there, and yet the wait for the
payment is ready while its task is completed. -/
theorem ready_behind_completed :
    ∃ e n r, e = after overtaking (ofCapacity 1 1) ∧ (∀ op ∈ overtaking, op.Faithful) ∧
      e.workshop.store.available = true ∧
      e.workshop.metrics.count .notificationDropped = 0 ∧ e.workshop.mailbox.queue = [] ∧
      e.workflows.Hosts ⟨"$1-pay"⟩ ∧
      e.workflows.nodes.get? ⟨"$1-pay"⟩ = some n ∧ n.state = .ready ∧
      e.workshop.store.records.get? ⟨"$1-pay"⟩ = some r ∧ r.state = .completed := by
  obtain ⟨hnode, hrecord, hd, hq, havailable⟩ := overtaking_run
  obtain ⟨n, hn, hready⟩ := Option.map_eq_some_iff.mp hnode
  obtain ⟨r, hr, hcompleted⟩ := Option.map_eq_some_iff.mp hrecord
  have hsound := ((steady_ofCapacity 1 1).reaches reaches_overtaking).sound
  refine ⟨_, n, r, rfl, ?_, havailable, hd, hq, hsound.hosts_iff.mpr ⟨n, hn⟩, hn, hready, hr,
    hcompleted⟩
  simp [overtaking, Op.Faithful]

end Engine

end Clearance
