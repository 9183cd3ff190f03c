import Clearance.Proofs.Workflow.Store

/-!
# Clearance — Proofs — Workflow — One node advances

What a store finds after one node advanced, and after the dependents it unlocks became ready
(`Lookup.advance`).

* `WorkflowNode.Onward`: a node has only moved forward, and not at all once it was terminal.
* `Lookup.onward_advance`: every node moves onward when one of them advances.
* `Gated.advance`: nodes that are locked exactly while they are not satisfied stay so when a node
  that is not locked advances.
-/

namespace Clearance

/-! ### Forward -/

/-- How far a state is.  Completed and failed are as far as each other. -/
def NodeState.rank : NodeState → Nat
  | .locked => 0
  | .ready => 1
  | .inProgress => 2
  | .completed | .failed => 3

/-- `s'` is `s` or a state further on. -/
def NodeState.Forward (s s' : NodeState) : Prop := s' = s ∨ s.rank < s'.rank

theorem NodeState.Forward.trans {s s₁ s₂ : NodeState} (h₁ : s.Forward s₁) (h₂ : s₁.Forward s₂) :
    s.Forward s₂ := by
  rcases h₁ with rfl | h₁
  · exact h₂
  · rcases h₂ with rfl | h₂
    · exact .inr h₁
    · exact .inr (Nat.lt_trans h₁ h₂)

theorem NodeState.forward_of_canAdvanceTo {s s' : NodeState} (h : s.canAdvanceTo s' = true) :
    s.Forward s' ∧ s.isTerminal = false := by
  revert h
  unfold Forward
  cases s <;> cases s' <;> decide

/-- The state that a notification asks of a node: the one it stands for, or the one the node has. -/
def Notification.asks (note : Notification) (n : WorkflowNode) : Except Failure NodeState :=
  match note.lifecycle with
  | none => .ok n.state
  | some text => project text

theorem Lifecycle.project_text (l : Lifecycle) : project l.text = .ok (.ofLifecycle l) := by
  cases l <;> rfl

theorem Notification.asks_eq {note : Notification} {l : Lifecycle}
    (h : note.lifecycle = some l.text) (n : WorkflowNode) : note.asks n = .ok (.ofLifecycle l) := by
  rw [asks, h]
  exact l.project_text

/-- A text names a lifecycle and stands for its state, or stands for none. -/
theorem project_cases (text : String) :
    (∃ l : Lifecycle, l.text = text ∧ project text = .ok (.ofLifecycle l)) ∨
      (∀ l : Lifecycle, l.text ≠ text) ∧ project text = .error (.unknownLifecycle text) := by
  by_cases h : ∃ l : Lifecycle, l.text = text
  · obtain ⟨l, rfl⟩ := h
    exact .inl ⟨l, rfl, l.project_text⟩
  · have hno : ∀ l : Lifecycle, l.text ≠ text := fun l hl => h ⟨l, hl⟩
    have hfind : Lifecycle.ofText? text = none := by
      rw [Lifecycle.ofText?, List.find?_eq_none]
      intro l _ hl
      exact hno l (eq_of_beq hl)
    refine .inr ⟨hno, ?_⟩
    rw [project, Lifecycle.parse, hfind]
    rfl

/-- Only a text that names no lifecycle asks nothing of a node. -/
theorem Notification.asks_eq_error {note : Notification} {n : WorkflowNode} {f : Failure}
    (h : note.asks n = .error f) :
    ∃ text, note.lifecycle = some text ∧ (∀ l : Lifecycle, l.text ≠ text) ∧
      f = .unknownLifecycle text := by
  unfold asks at h
  split at h
  · cases h
  · rename_i text htext
    rcases project_cases text with ⟨l, -, hp⟩ | ⟨hno, hp⟩
    · exact nomatch hp.symm.trans h
    · exact ⟨text, htext, hno, (Except.error.inj (hp.symm.trans h)).symm⟩

theorem Notification.named_of_asks {note : Notification} {n : WorkflowNode} {next : NodeState}
    (h : note.asks n = .ok next) {text : String} (ht : note.lifecycle = some text) :
    ∃ l : Lifecycle, l.text = text := by
  rcases project_cases text with ⟨l, hl, -⟩ | ⟨-, hp⟩
  · exact ⟨l, hl⟩
  · rw [asks, ht] at h
    exact nomatch hp.symm.trans h

/-- Why a notification is refused: it names no lifecycle, or its node is not there, or its node may
not advance to the state that is asked of it. -/
inductive Notification.Refused (look : Lookup) (note : Notification) : Failure → Prop
  | unknownLifecycle {text : String} (ht : note.lifecycle = some text)
      (hno : ∀ l : Lifecycle, l.text ≠ text) : Refused look note (.unknownLifecycle text)
  | noNode (ht : ∀ text, note.lifecycle = some text → ∃ l : Lifecycle, l.text = text)
      (hn : look note.nodeId = none) : Refused look note (.noNode note.nodeId)
  | cannotAdvance {n : WorkflowNode} {next : NodeState} (hn : look note.nodeId = some n)
      (hask : note.asks n = .ok next) (hno : n.state.canAdvanceTo next = false) :
      Refused look note (.cannotAdvance n.id n.state next)

namespace WorkflowNode

/-- `n'` is what has become of `n`: the same node, not further back, and the same in all if it was
terminal. -/
structure Onward (n n' : WorkflowNode) : Prop where
  kin : n.Kin n'
  forward : n.state.Forward n'.state
  terminal : n.state.isTerminal = true → n' = n

theorem Onward.refl (n : WorkflowNode) : n.Onward n := ⟨.refl n, .inl rfl, fun _ => rfl⟩

theorem Onward.trans {n n₁ n₂ : WorkflowNode} (h₁ : n.Onward n₁) (h₂ : n₁.Onward n₂) :
    n.Onward n₂ := by
  refine ⟨h₁.kin.trans h₂.kin, h₁.forward.trans h₂.forward, fun ht => ?_⟩
  obtain rfl := h₁.terminal ht
  exact h₂.terminal ht

theorem Onward.not_locked {n n' : WorkflowNode} (h : n.Onward n') (hn : n.state ≠ .locked) :
    n'.state ≠ .locked := by
  rcases h.forward with hs | hs
  · rw [hs]
    exact hn
  · intro hl
    rw [hl] at hs
    exact Nat.not_lt_zero _ hs

theorem onward_opened {n : WorkflowNode} (h : n.state = .locked) : n.Onward n.opened := by
  refine ⟨n.kin_opened, .inr ?_, fun ht => ?_⟩
  · rw [h]
    exact Nat.zero_lt_one
  · rw [h] at ht
    cases ht

theorem fit_opened {n : WorkflowNode} (h : n.Fit) (hn : n.state = .locked) : n.opened.Fit :=
  ⟨nofun, fun _ => h.outcome (by rw [hn]; decide)⟩

/-- A legal advance moves onward, and what the node shows fits its state. -/
theorem onward_advance {n : WorkflowNode} {next : NodeState} (h : n.state.canAdvanceTo next = true)
    (note : Notification) : n.Onward (n.advance next note) := by
  obtain ⟨hforward, ht⟩ := NodeState.forward_of_canAdvanceTo h
  exact ⟨n.kin_advance next note, hforward, fun hterm => nomatch ht.symm.trans hterm⟩

theorem fit_advance {n : WorkflowNode} {next : NodeState} (hn : n.Fit)
    (h : n.state.canAdvanceTo next = true) (note : Notification) : (n.advance next note).Fit := by
  refine ⟨fun hl => ?_, fun hc => ?_⟩
  · obtain rfl : next = .locked := hl
    revert h
    cases n.state <;> exact nofun
  · have hne : n.state ≠ .completed := by
      intro hs
      rw [hs] at h
      cases next <;> cases h
    exact (if_neg hc).trans (hn.outcome hne)

/-- The node once it took a notification, if it can. -/
def take? (n : WorkflowNode) (note : Notification) : Option WorkflowNode :=
  match note.asks n with
  | .ok next => if n.state.canAdvanceTo next = true then some (n.advance next note) else none
  | .error _ => none

theorem take?_eq_some {n m : WorkflowNode} {note : Notification} :
    n.take? note = some m ↔
      ∃ next, note.asks n = .ok next ∧ n.state.canAdvanceTo next = true ∧
        m = n.advance next note := by
  unfold take?
  constructor
  · intro h
    split at h
    · rename_i next hnext
      split at h
      · exact ⟨next, hnext, ‹_›, (Option.some.inj h).symm⟩
      · cases h
    · cases h
  · rintro ⟨next, hnext, hlegal, rfl⟩
    rw [hnext]
    exact if_pos hlegal

/-- A refused notification is one that its node does not take. -/
theorem take?_of_refused {look : Lookup} {note : Notification} {f : Failure}
    (h : note.Refused look f) {n : WorkflowNode} (hn : look note.nodeId = some n) :
    n.take? note = none := by
  cases h with
  | unknownLifecycle ht hno =>
      rw [take?]
      split
      · rename_i next hask
        obtain ⟨l, hl⟩ := Notification.named_of_asks hask ht
        exact absurd hl (hno l)
      · rfl
  | noNode ht hno => exact nomatch hno.symm.trans hn
  | cannotAdvance hk hask hno =>
      obtain rfl := Option.some.inj (hn.symm.trans hk)
      rw [take?, hask]
      exact if_neg (Bool.not_eq_true _ ▸ hno)

/-- A node that takes a notification moves onward. -/
theorem onward_of_take? {n m : WorkflowNode} {note : Notification} (h : n.take? note = some m) :
    n.Onward m := by
  obtain ⟨next, -, hlegal, rfl⟩ := take?_eq_some.mp h
  exact onward_advance hlegal note

theorem fit_of_take? {n m : WorkflowNode} {note : Notification} (hn : n.Fit)
    (h : n.take? note = some m) : m.Fit := by
  obtain ⟨next, -, hlegal, rfl⟩ := take?_eq_some.mp h
  exact fit_advance hn hlegal note

theorem opensOn_iff {look : Lookup} {id : NodeId} {n : WorkflowNode} :
    n.opensOn look id = true ↔
      n.state = .locked ∧ n.dependsOn id = true ∧ n.satisfied look = true := by
  simp only [opensOn, Bool.and_eq_true, beq_iff_eq, and_assoc]

end WorkflowNode

/-! ### Lookups -/

namespace Lookup

/-- What is found once `m` took the place of the node with its id. -/
def put (look : Lookup) (m : WorkflowNode) : Lookup :=
  fun id => if id = m.id then some m else look id

/-- What is found once `m` took its place and, if it is completed, the dependents that it unlocks
are ready. -/
def advance (look : Lookup) (m : WorkflowNode) : Lookup := fun id =>
  if id = m.id then some m
  else (look id).map fun n =>
    if m.state = .completed ∧ n.opensOn (look.put m) m.id = true then n.opened else n

variable {look : Lookup} {m n : WorkflowNode}

@[simp] theorem advance_self : look.advance m m.id = some m := if_pos rfl

theorem advance_ne {id : NodeId} (h : id ≠ m.id) :
    look.advance m id = (look id).map fun n =>
      if m.state = .completed ∧ n.opensOn (look.put m) m.id = true then n.opened else n :=
  if_neg h

/-- Only a completed node unlocks others. -/
theorem advance_eq_put (h : m.state ≠ .completed) {id : NodeId} :
    look.advance m id = look.put m id := by
  simp only [advance, put, h, false_and, if_false, Option.map_id']

/-- A completed node advances by taking its place and opening the nodes that it unlocks there. -/
theorem put_opened (hc : m.state = .completed) {ids : List NodeId}
    (hids : ∀ {id k}, look.put m id = some k → (id ∈ ids ↔ k.opensOn (look.put m) m.id = true))
    (id : NodeId) :
    (if id ∈ ids then (look.put m id).map WorkflowNode.opened else look.put m id) =
      look.advance m id := by
  by_cases hid : id = m.id
  · subst hid
    have hm : look.put m m.id = some m := if_pos rfl
    have hno : ¬ m.id ∈ ids := by
      rw [hids hm, WorkflowNode.opensOn_iff, hc]
      rintro ⟨h, -⟩
      cases h
    rw [if_neg hno, hm, advance_self]
  · have hput : look.put m id = look id := if_neg hid
    rw [advance_ne hid, hput]
    cases hk : look id with
    | none => simp
    | some k => simp only [hids (hput.trans hk), hc, true_and, Option.map_some, apply_ite some]

/-- What is found after the advance is `m`, a node that stays as it was, or a dependent that
opened. -/
theorem of_advance {id : NodeId} {n' : WorkflowNode} (h : look.advance m id = some n') :
    id = m.id ∧ n' = m ∨
      ∃ n, id ≠ m.id ∧ look id = some n ∧
        (n' = n ∧ (m.state = .completed → n.opensOn (look.put m) m.id = false) ∨
          n' = n.opened ∧ m.state = .completed ∧ n.opensOn (look.put m) m.id = true) := by
  by_cases hid : id = m.id
  · subst hid
    exact .inl ⟨rfl, (Option.some.inj (advance_self.symm.trans h)).symm⟩
  · rw [advance_ne hid] at h
    obtain ⟨n, hn, rfl⟩ := Option.map_eq_some_iff.mp h
    refine .inr ⟨n, hid, hn, ?_⟩
    split
    · exact .inr ⟨rfl, ‹_›⟩
    · rename_i hno
      exact .inl ⟨rfl, fun hc => Bool.not_eq_true _ ▸ fun ho => hno ⟨hc, ho⟩⟩

/-- Every node moves onward when one of them advances. -/
theorem onward_advance (hn : look m.id = some n) (h : n.Onward m) {id : NodeId} {k : WorkflowNode}
    (hk : look id = some k) : ∃ k', look.advance m id = some k' ∧ k.Onward k' := by
  by_cases hid : id = m.id
  · subst hid
    obtain rfl := Option.some.inj (hn.symm.trans hk)
    exact ⟨m, advance_self, h⟩
  · rw [advance_ne hid, hk]
    refine ⟨_, rfl, ?_⟩
    dsimp only
    split
    · rename_i ho
      exact WorkflowNode.onward_opened (WorkflowNode.opensOn_iff.mp ho.2).1
    · exact .refl k

/-- A node that is not completed and not locked is found as it was, except for `m`. -/
theorem advance_of_ne_locked {id : NodeId} {k : WorkflowNode} (hk : look id = some k)
    (hid : id ≠ m.id) (hl : k.state ≠ .locked) : look.advance m id = some k := by
  rw [advance_ne hid, hk]
  refine congrArg some (if_neg fun ho => ?_)
  exact hl (WorkflowNode.opensOn_iff.mp ho.2).1

end Lookup

/-! ### Gates -/

/-- Every node is locked exactly while its dependencies are not satisfied. -/
def Gated (look : Lookup) : Prop :=
  ∀ id n, look id = some n → (n.state = .locked ↔ n.satisfied look = false)

section Gates

variable {look : Lookup} {m n : WorkflowNode}

/-- What a node met before another one advanced, it meets when that one is in place. -/
theorem isMet_put (hn : look m.id = some n) (hc : n.state ≠ .completed) {d : ResolvedDependency}
    (h : d.isMet look = true) : d.isMet (look.put m) = true := by
  refine d.isMet_mono (fun k hk hcomp => ?_) h
  refine (if_neg fun hid => ?_).trans hk
  obtain rfl := Option.some.inj (hn.symm.trans (hid ▸ hk))
  exact hc hcomp

/-- A dependency on another node is met or not, whatever became of `m`. -/
theorem isMet_put_ne {d : ResolvedDependency} (h : d.nodeId ≠ m.id) :
    d.isMet (look.put m) = d.isMet look := by
  rw [ResolvedDependency.isMet, ResolvedDependency.isMet,
    show look.put m d.nodeId = look d.nodeId from if_neg h]

/-- Until `m` is completed, no dependency is met by it. -/
theorem isMet_put_of_not_completed (hn : look m.id = some n) (hc : n.state ≠ .completed)
    (hm : m.state ≠ .completed) (d : ResolvedDependency) : d.isMet (look.put m) = d.isMet look := by
  refine Bool.eq_iff_iff.mpr ⟨fun h => ?_, isMet_put hn hc⟩
  refine d.isMet_mono (fun k hk hcomp => ?_) h
  by_cases hid : d.nodeId = m.id
  · obtain rfl : m = k := Option.some.inj ((if_pos hid).symm.trans hk)
    exact absurd hcomp hm
  · exact (if_neg hid).symm.trans hk

/-- Opening nodes meets no dependency. -/
theorem isMet_advance (d : ResolvedDependency) :
    d.isMet (look.advance m) = d.isMet (look.put m) := by
  refine Bool.eq_iff_iff.mpr ⟨d.isMet_mono fun k hk hcomp => ?_, d.isMet_mono fun k hk hcomp => ?_⟩
  · rcases Lookup.of_advance hk with ⟨hid, rfl⟩ | ⟨n, hid, hn, ⟨rfl, -⟩ | ⟨rfl, -⟩⟩
    · exact if_pos hid
    · exact (if_neg hid).trans hn
    · cases hcomp
  · by_cases hid : d.nodeId = m.id
    · obtain rfl : m = k := Option.some.inj ((if_pos hid).symm.trans hk)
      rw [hid, Lookup.advance_self]
    · refine Lookup.advance_of_ne_locked ((if_neg hid).symm.trans hk) hid ?_
      rw [hcomp]
      decide

theorem satisfied_advance (k : WorkflowNode) :
    k.satisfied (look.advance m) = k.satisfied (look.put m) :=
  WorkflowNode.satisfied_congr fun d _ => isMet_advance d

/-- A locked node that does not open when `m` is put in its place is not satisfied then. -/
theorem satisfied_put_of_closed (hn : look m.id = some n) (hc : n.state ≠ .completed)
    {k : WorkflowNode} (hl : k.state = .locked) (hsat : k.satisfied look = false)
    (hno : m.state = .completed → k.opensOn (look.put m) m.id = false) :
    k.satisfied (look.put m) = false := by
  by_cases hcomp : m.state = .completed
  · by_cases hdep : k.dependsOn m.id = true
    · rw [← Bool.not_eq_true]
      intro hs
      exact nomatch (hno hcomp).symm.trans (WorkflowNode.opensOn_iff.mpr ⟨hl, hdep, hs⟩)
    · rw [← hsat]
      refine WorkflowNode.satisfied_congr fun d hd => isMet_put_ne fun hid => hdep ?_
      exact List.any_eq_true.mpr ⟨d, hd, beq_iff_eq.mpr hid⟩
  · rw [← hsat]
    exact WorkflowNode.satisfied_congr fun d _ => isMet_put_of_not_completed hn hc hcomp d

/-- **The gate holds.** A node that is not locked advances, and still every node is locked exactly
while it is not satisfied. -/
theorem Gated.advance (h : Gated look) (hn : look m.id = some n) (hkin : n.Kin m)
    (hlegal : n.state.canAdvanceTo m.state = true) (hl : n.state ≠ .locked) :
    Gated (look.advance m) := by
  have hc : n.state ≠ .completed := by
    intro hs
    rw [hs] at hlegal
    revert hlegal
    cases m.state <;> exact nofun
  have hm : m.state ≠ .locked := by
    intro hs
    rw [hs] at hlegal
    revert hlegal
    cases n.state <;> exact nofun
  -- what was satisfied stays so, since no completed node changed
  have hstay : ∀ k : WorkflowNode, k.satisfied look = true → k.satisfied (look.put m) = true :=
    fun k => WorkflowNode.satisfied_mono fun d _ => isMet_put hn hc
  intro id k hk
  rw [satisfied_advance]
  rcases Lookup.of_advance hk with ⟨-, rfl⟩ | ⟨k', hid, hk', ⟨rfl, hno⟩ | ⟨rfl, -, ho⟩⟩
  · have hsat : n.satisfied look = true := by
      rw [← Bool.not_eq_false]
      intro hs
      exact hl ((h _ n hn).mpr hs)
    rw [hkin.satisfied_eq, hstay n hsat]
    exact ⟨fun hs => absurd hs hm, nofun⟩
  · rw [h id k hk']
    refine ⟨fun hs => satisfied_put_of_closed hn hc ((h id k hk').mpr hs) hs hno, fun hs => ?_⟩
    · rw [← Bool.not_eq_true] at hs ⊢
      intro hsat
      exact hs (hstay k hsat)
  · rw [k'.kin_opened.satisfied_eq, (WorkflowNode.opensOn_iff.mp ho).2.2]
    exact ⟨nofun, nofun⟩

end Gates

end Clearance
