import Clearance.Proofs.Engine.Course

/-!
# Clearance — Proofs — Engine — The status of an instance

An instance is active until one of its nodes decides it: a node that fails, or a terminal one that
is completed.

* `WorkflowStore.Turn`: the ways in which an operation changes the nodes and the instances of a
  store.
* `WorkflowStore.Turn.verdict`: one operation ends an active instance exactly if it decides it, and
  as it decides it.  A status that is not active it leaves alone.
* `WorkflowStore.Turn.ruled`: the active instances stay those that are not decided.
* `Engine.status_follows_first_decision`: whatever is done, the status of an instance tells whether
  and how it was first decided.
-/

namespace Clearance

/-! ### The status that follows -/

/-- What becomes of an active instance when one of its nodes comes to a state. -/
theorem InstanceStatus.after_cases (terminal : Bool) (state : NodeState) :
    (state = .failed ∧ InstanceStatus.active.after terminal state = .failed) ∨
      (terminal = true ∧ state = .completed ∧
        InstanceStatus.active.after terminal state = .completed) ∨
      (state ≠ .failed ∧ ¬ (terminal = true ∧ state = .completed) ∧
        InstanceStatus.active.after terminal state = .active) := by
  cases terminal <;> cases state <;> simp [InstanceStatus.after]

theorem InstanceStatus.after_of_ne {status : InstanceStatus} (h : status ≠ .active)
    (terminal : Bool) (state : NodeState) : status.after terminal state = status :=
  if_neg h

namespace WorkflowStore

/-! ### Decisions -/

/-- A node of the store is as `P` says. -/
def Shows (s : WorkflowStore) (P : WorkflowNode → Prop) : Prop :=
  ∃ id n, s.nodes.get? id = some n ∧ P n

/-- A node of the instance is failed. -/
def Failing (s : WorkflowStore) (i : InstanceId) : Prop :=
  s.Shows fun n => n.owner.instanceId = i ∧ n.state = .failed

/-- A terminal node of the instance is completed. -/
def Finishing (s : WorkflowStore) (i : InstanceId) : Prop :=
  s.Shows fun n => n.owner.instanceId = i ∧ n.terminal = true ∧ n.state = .completed

/-- No node of the instance is failed, and no terminal node of it is completed. -/
def Undecided (s : WorkflowStore) (i : InstanceId) : Prop := ¬ s.Failing i ∧ ¬ s.Finishing i

/-- The status is the one of an instance that was undecided one operation before. -/
def Verdict (s : WorkflowStore) (i : InstanceId) : InstanceStatus → Prop
  | .active => s.Undecided i
  | .failed => s.Failing i ∧ ¬ s.Finishing i
  | .completed => s.Finishing i ∧ ¬ s.Failing i

/-- The active instances are those that are not decided. -/
def Ruled (s : WorkflowStore) : Prop :=
  ∀ i x, s.instances.get? i = some x → (x.status = .active ↔ s.Undecided i)

variable {s s' : WorkflowStore} {i : InstanceId} {x : WorkflowInstance}

theorem Verdict.active_iff {status : InstanceStatus} (h : s.Verdict i status) :
    status = .active ↔ s.Undecided i := by
  cases status with
  | active => exact ⟨fun _ => h, fun _ => rfl⟩
  | failed => exact ⟨nofun, fun hu => absurd h.1 hu.1⟩
  | completed => exact ⟨nofun, fun hu => absurd h.1 hu.2⟩

theorem Verdict.failed_iff {status : InstanceStatus} (h : s.Verdict i status) :
    status = .failed ↔ s.Failing i := by
  cases status with
  | active => exact ⟨nofun, fun hf => absurd hf h.1⟩
  | failed => exact ⟨fun _ => h.1, fun _ => rfl⟩
  | completed => exact ⟨nofun, fun hf => absurd hf h.2⟩

theorem Verdict.completed_iff {status : InstanceStatus} (h : s.Verdict i status) :
    status = .completed ↔ s.Finishing i := by
  cases status with
  | active => exact ⟨nofun, fun hf => absurd hf h.2⟩
  | failed => exact ⟨nofun, fun hf => absurd hf h.2⟩
  | completed => exact ⟨fun _ => h.1, fun _ => rfl⟩

/-! ### One operation -/

/-- What an operation does to the nodes and the instances of a store. -/
inductive Turn (s : WorkflowStore) : WorkflowStore → Prop
  | still {s' : WorkflowStore} (hn : s'.nodes = s.nodes) (hi : s'.instances = s.instances) :
      Turn s s'
  | committed {c : Created} {calls : Nat} (hw : c.Well) (ha : c.inst.status = .active)
      (hc : s.conflict? c.inst c.nodes = none) :
      Turn s { s.commit c.inst c.nodes with calls := calls }
  | settled {note : Notification} {n m : WorkflowNode} {x : WorkflowInstance} {calls : Nat}
      (hn : s.nodes.get? m.id = some n) (ht : n.take? note = some m)
      (hx : s.instances.get? m.owner.instanceId = some x) (hid : x.id = m.owner.instanceId) :
      Turn s { s.settle note m x with calls := calls }

section Shows

variable {P : WorkflowNode → Prop} (hP : ∀ n, P n → n.state.isTerminal = true)
include hP

/-- New nodes are ready or locked, so no other node is at its end. -/
theorem shows_commit {c : Created} (hw : c.Well) (hc : s.conflict? c.inst c.nodes = none) :
    (s.commit c.inst c.nodes).Shows P ↔ s.Shows P := by
  constructor
  · rintro ⟨id, n, hn, h⟩
    rcases (get?_commit_eq_some hc hw.distinct).mp hn with ⟨hmem, -⟩ | hn
    · exact nomatch (hP n h).symm.trans (hw.not_terminal hmem)
    · exact ⟨id, n, hn, h⟩
  · rintro ⟨id, n, hn, h⟩
    exact ⟨id, n, (get?_commit_eq_some hc hw.distinct).mpr (.inr hn), h⟩

/-- A notification brings one node to its end, if any. -/
theorem shows_settle {note : Notification} {n m : WorkflowNode} (hs : s.Sound)
    (hn : s.nodes.get? m.id = some n) (ht : n.take? note = some m)
    (hx : s.instances.get? x.id = some x) :
    (s.settle note m x).Shows P ↔ s.Shows P ∨ P m := by
  have ho := WorkflowNode.onward_of_take? ht
  have hb := hs.becomes_settle hn ho (WorkflowNode.fit_of_take? (hs.fit _ n hn) ht) hx note
  constructor
  · rintro ⟨id, k, hk, h⟩
    rw [hb.nodes] at hk
    rcases Lookup.of_advance hk with ⟨-, rfl⟩ | ⟨k', -, hk', ⟨rfl, -⟩ | ⟨rfl, -⟩⟩
    · exact .inr h
    · exact .inl ⟨id, k, hk', h⟩
    · exact nomatch hP _ h
  · rintro (⟨id, k, hk, h⟩ | h)
    · obtain ⟨k', hk', honward⟩ := Lookup.onward_advance hn ho hk
      obtain rfl := honward.terminal (hP k h)
      exact ⟨id, k', (hb.nodes id).trans hk', h⟩
    · exact ⟨m.id, m, (hb.nodes m.id).trans Lookup.advance_self, h⟩

/-- What has come to its end stays there. -/
theorem Turn.shows (h : s.Turn s') (hs : s.Sound) (hshow : s.Shows P) : s'.Shows P := by
  cases h with
  | still hn _ =>
      rw [Shows, hn]
      exact hshow
  | committed hw _ hc => exact (shows_commit hP hw hc).mpr hshow
  | settled hn ht hx hid => exact (shows_settle hP hs hn ht (hid ▸ hx)).mpr (.inl hshow)

end Shows

theorem isTerminal_of_failing (n : WorkflowNode)
    (h : n.owner.instanceId = i ∧ n.state = .failed) : n.state.isTerminal = true := by
  rw [h.2]
  rfl

theorem isTerminal_of_finishing (n : WorkflowNode)
    (h : n.owner.instanceId = i ∧ n.terminal = true ∧ n.state = .completed) :
    n.state.isTerminal = true := by
  rw [h.2.2]
  rfl

/-- An instance that is undecided after an operation was so before. -/
theorem Turn.undecided (h : s.Turn s') (hs : s.Sound) (hu : s'.Undecided i) : s.Undecided i :=
  ⟨fun hf => hu.1 (h.shows isTerminal_of_failing hs hf),
    fun hf => hu.2 (h.shows isTerminal_of_finishing hs hf)⟩

/-- The node that takes a notification gives its instance the verdict. -/
theorem Undecided.settle {note : Notification} {n m : WorkflowNode} (h : s.Undecided i)
    (hs : s.Sound) (hn : s.nodes.get? m.id = some n) (ht : n.take? note = some m)
    (hx : s.instances.get? x.id = some x) (hi : m.owner.instanceId = i) :
    (s.settle note m x).Verdict i (InstanceStatus.active.after m.terminal m.state) := by
  have hfail := shows_settle (isTerminal_of_failing (i := i)) hs hn ht hx
  have hfinish := shows_settle (isTerminal_of_finishing (i := i)) hs hn ht hx
  rcases InstanceStatus.after_cases m.terminal m.state with
    ⟨hf, he⟩ | ⟨hterm, hc, he⟩ | ⟨hnf, hnc, he⟩
  · rw [he]
    refine ⟨hfail.mpr (.inr ⟨hi, hf⟩), fun hfin => ?_⟩
    rcases hfinish.mp hfin with hold | ⟨-, -, hc⟩
    · exact h.2 hold
    · exact nomatch hf.symm.trans hc
  · rw [he]
    refine ⟨hfinish.mpr (.inr ⟨hi, hterm, hc⟩), fun hfa => ?_⟩
    rcases hfail.mp hfa with hold | ⟨-, hf⟩
    · exact h.1 hold
    · exact nomatch hc.symm.trans hf
  · rw [he]
    refine ⟨fun hfa => ?_, fun hfin => ?_⟩
    · rcases hfail.mp hfa with hold | ⟨-, hf⟩
      · exact h.1 hold
      · exact hnf hf
    · rcases hfinish.mp hfin with hold | ⟨-, hc⟩
      · exact h.2 hold
      · exact hnc hc

/-- …and leaves every other instance as it is. -/
theorem Undecided.settle_ne {note : Notification} {n m : WorkflowNode} (h : s.Undecided i)
    (hs : s.Sound) (hn : s.nodes.get? m.id = some n) (ht : n.take? note = some m)
    (hx : s.instances.get? x.id = some x) (hi : m.owner.instanceId ≠ i) :
    (s.settle note m x).Undecided i := by
  refine ⟨fun hfa => ?_, fun hfin => ?_⟩
  · rcases (shows_settle isTerminal_of_failing hs hn ht hx).mp hfa with hold | ⟨ho, -⟩
    · exact h.1 hold
    · exact hi ho
  · rcases (shows_settle isTerminal_of_finishing hs hn ht hx).mp hfin with hold | ⟨ho, -⟩
    · exact h.2 hold
    · exact hi ho

theorem Undecided.commit {c : Created} (h : s.Undecided i) (hw : c.Well)
    (hc : s.conflict? c.inst c.nodes = none) : (s.commit c.inst c.nodes).Undecided i :=
  ⟨fun hf => h.1 ((shows_commit isTerminal_of_failing hw hc).mp hf),
    fun hf => h.2 ((shows_commit isTerminal_of_finishing hw hc).mp hf)⟩

/-- **One operation.** An active instance gets the verdict of the operation, and a status that is
not active stays. -/
theorem Turn.verdict (h : s.Turn s') (hs : s.Sound) (hx : s.instances.get? i = some x) :
    ∃ x', s'.instances.get? i = some x' ∧
      (x.status ≠ .active → x'.status = x.status) ∧
      (x.status = .active → s.Undecided i → s'.Verdict i x'.status) := by
  cases h with
  | still hn hi =>
      refine ⟨x, hi ▸ hx, fun _ => rfl, fun ha hu => ?_⟩
      rw [ha, Verdict, Undecided, Failing, Finishing, Shows, Shows, hn]
      exact hu
  | @committed c calls hw ha hc =>
      have hne : i ≠ c.inst.id := by
        rintro rfl
        exact nomatch (new_of_conflict? hc).1.symm.trans hx
      refine ⟨x, (Table.get?_insert_ne _ _ hne).trans hx, fun _ => rfl, fun ha hu => ?_⟩
      rw [ha]
      exact hu.commit hw hc
  | @settled note n m y calls hn ht hy hid =>
      have hkeyed : s.instances.get? y.id = some y := hid ▸ hy
      by_cases hi : m.owner.instanceId = i
      · obtain rfl : y = x := Option.some.inj ((hi ▸ hy).symm.trans hx)
        refine ⟨y.take note m, ?_, fun hne => ?_, fun ha hu => ?_⟩
        · rw [← hi, ← hid]
          exact Table.get?_insert_self _ _ _
        · exact InstanceStatus.after_of_ne hne _ _
        · rw [WorkflowInstance.take, ha]
          exact hu.settle hs hn ht hkeyed hi
      · refine ⟨x, (Table.get?_insert_ne _ _ fun h => hi ?_).trans hx, fun _ => rfl,
          fun ha hu => ?_⟩
        · rw [h, hid]
        · rw [ha]
          exact hu.settle_ne hs hn ht hkeyed hi

/-- A new instance is active, and nothing has decided it. -/
theorem Turn.born (h : s.Turn s') (hs : s.Sound) (hno : s.instances.get? i = none)
    (hx : s'.instances.get? i = some x) : x.status = .active ∧ s'.Undecided i := by
  cases h with
  | still _ hi =>
      rw [hi] at hx
      exact nomatch hno.symm.trans hx
  | @committed c calls hw ha hc =>
      rcases Table.of_get?_insert hx with ⟨rfl, rfl⟩ | ⟨-, hold⟩
      · refine ⟨ha, Undecided.commit ?_ hw hc⟩
        -- before it was made, the instance had no nodes
        have hnone : ∀ id n, s.nodes.get? id = some n → n.owner.instanceId ≠ c.inst.id := by
          intro id n hn ho
          obtain ⟨y, hy, -⟩ := owner?_eq_some (hs.owned id n hn)
          rw [ho] at hy
          exact nomatch hno.symm.trans hy
        exact ⟨fun ⟨id, n, hn, ho, _⟩ => hnone id n hn ho,
          fun ⟨id, n, hn, ho, _⟩ => hnone id n hn ho⟩
      · exact nomatch hno.symm.trans hold
  | settled hn ht hy hid =>
      rcases Table.of_get?_insert hx with ⟨rfl, -⟩ | ⟨-, hold⟩
      · rw [← hid] at hy
        exact nomatch hno.symm.trans hy
      · exact nomatch hno.symm.trans hold

/-- The active instances stay those that are not decided. -/
theorem Turn.ruled (h : s.Turn s') (hs : s.Sound) (hr : s.Ruled) : s'.Ruled := by
  intro i x' hx'
  cases hx : s.instances.get? i with
  | none =>
      obtain ⟨ha, hu⟩ := h.born hs hx hx'
      exact iff_of_true ha hu
  | some x =>
      obtain ⟨y, hy, hkeep, hverdict⟩ := h.verdict hs hx
      obtain rfl := Option.some.inj (hy.symm.trans hx')
      by_cases ha : x.status = .active
      · exact (hverdict ha ((hr i x hx).mp ha)).active_iff
      · refine ⟨fun hy => absurd ((hkeep ha).symm.trans hy) ha, fun hu => absurd ?_ ha⟩
        exact (hr i x hx).mpr (h.undecided hs hu)

end WorkflowStore

namespace Engine

open WorkflowStore

theorem Course.turn {e e' : Engine} {op : Op} {as : List Activation} (h : Course e op as e') :
    e.workflows.Turn e'.workflows := by
  cases h with
  | invalid _ => exact .still rfl rfl
  | conflicting _ _ => exact .still rfl rfl
  | aborted _ _ _ => exact .still rfl rfl
  | @founded kind d globalContext _ _ _ hv hd hc _ =>
      refine .committed ?_ (by rw [hd]; rfl) hc
      rw [hd]
      exact e.well_drafted kind globalContext hv
  | idle _ => exact .still rfl rfl
  | refused hop _ hw =>
      rw [hw.workflows, asked, hop.rest.1]
      exact .still rfl rfl
  | carried hop ht hx hid hw =>
      rw [hw.workflows, settled, hop.rest.1]
      exact .settled ht.found ht.taken hx hid
  | outside _ => exact .still rfl rfl

/-! ### Any number of operations -/

/-- What the status of an instance rests on. -/
structure Ruling (e : Engine) : Prop where
  steady : e.Steady
  ruled : e.workflows.Ruled

theorem ruling_ofCapacity (containers notifications : Nat) :
    (ofCapacity containers notifications).Ruling where
  steady := steady_ofCapacity containers notifications
  ruled _ _ h := nomatch h

theorem Ruling.perform {e : Engine} (h : e.Ruling) (op : Op) : (op.perform e).2.Ruling := by
  obtain ⟨as, hcourse⟩ := exists_course h.steady op
  exact ⟨h.steady.effect (effect_perform h.steady op), hcourse.turn.ruled h.steady.sound h.ruled⟩

/-- An operation among these is the first that decides the instance, and it does so as `P` says. -/
def FirstDecided (P : WorkflowStore → Prop) (i : InstanceId) (ops : List Op) (e : Engine) : Prop :=
  ∃ before op rest, ops = before ++ op :: rest ∧ (after before e).workflows.Undecided i ∧
    P (after (before ++ [op]) e).workflows

theorem firstDecided_cons {P : WorkflowStore → Prop} {i : InstanceId} {op : Op} {ops : List Op}
    {e : Engine} : FirstDecided P i (op :: ops) e ↔
      e.workflows.Undecided i ∧ P (op.perform e).2.workflows ∨
        FirstDecided P i ops (op.perform e).2 := by
  constructor
  · rintro ⟨before, op', rest, hops, hu, hP⟩
    cases before with
    | nil =>
        obtain ⟨rfl, -⟩ := List.cons.inj hops
        exact .inl ⟨hu, hP⟩
    | cons _ before =>
        obtain ⟨rfl, hrest⟩ := List.cons.inj hops
        exact .inr ⟨before, op', rest, hrest, hu, hP⟩
  · rintro (⟨hu, hP⟩ | ⟨before, op', rest, rfl, hu, hP⟩)
    · exact ⟨[], op, ops, rfl, hu, hP⟩
    · exact ⟨op :: before, op', rest, rfl, hu, hP⟩

/-- A decided instance is not decided for the first time again. -/
theorem not_firstDecided {P : WorkflowStore → Prop} {i : InstanceId} {ops : List Op} {e : Engine}
    (h : e.Ruling) (hu : ¬ e.workflows.Undecided i) : ¬ FirstDecided P i ops e := by
  induction ops generalizing e with
  | nil =>
      rintro ⟨before, op, rest, hops, -⟩
      exact nomatch (List.append_eq_nil_iff.mp hops.symm).2
  | cons op rest ih =>
      obtain ⟨as, hcourse⟩ := exists_course h.steady op
      rw [firstDecided_cons]
      rintro (⟨hu', -⟩ | hrest)
      · exact hu hu'
      · exact ih (h.perform op) (fun h' => hu (hcourse.turn.undecided h.steady.sound h')) hrest

/-- **The first decision stands.** In an engine that is reached, an instance is active exactly while
none of its nodes is failed and no terminal one is completed.  Whatever operations follow, with
whatever notifications, this stays so; a status that is not active stays as it is; and an active
instance comes to be failed exactly if the first operation to decide it makes a node of it fail, and
completed exactly if that operation completes a terminal node of it. -/
theorem status_follows_first_decision {containers notifications : Nat}
    {admits : Engine → Op → Prop} {e : Engine}
    (h : Reaches admits (ofCapacity containers notifications) e) {i : InstanceId}
    {x : WorkflowInstance} (hx : e.workflows.instances.get? i = some x) (ops : List Op) :
    ∃ x', (after ops e).workflows.instances.get? i = some x' ∧
      (x'.status = .active ↔ (after ops e).workflows.Undecided i) ∧
      (x.status ≠ .active → x'.status = x.status) ∧
      (x.status = .active →
        (x'.status = .failed ↔ FirstDecided (·.Failing i) i ops e) ∧
        (x'.status = .completed ↔ FirstDecided (·.Finishing i) i ops e)) := by
  have hruling : e.Ruling := h.invariant (ruling_ofCapacity containers notifications)
    fun e₁ op _ h₁ => h₁.perform op
  clear h
  induction ops generalizing e x with
  | nil =>
      have hno : ∀ P, ¬ FirstDecided P i [] e := by
        rintro P ⟨before, op, rest, hops, -⟩
        exact nomatch (List.append_eq_nil_iff.mp hops.symm).2
      refine ⟨x, hx, hruling.ruled i x hx, fun _ => rfl, fun ha => ⟨?_, ?_⟩⟩
      · rw [ha]
        exact ⟨nofun, fun hf => absurd hf (hno _)⟩
      · rw [ha]
        exact ⟨nofun, fun hf => absurd hf (hno _)⟩
  | cons op rest ih =>
      obtain ⟨as, hcourse⟩ := exists_course hruling.steady op
      obtain ⟨x₁, hx₁, hkeep, hverdict⟩ := hcourse.turn.verdict hruling.steady.sound hx
      have hruling₁ := hruling.perform op
      obtain ⟨x', hx', hactive, hkeep', hfirst⟩ := ih hx₁ hruling₁
      refine ⟨x', hx', hactive, fun hne => ?_, fun ha => ?_⟩
      · have hstatus := hkeep hne
        exact (hkeep' (hstatus ▸ hne)).trans hstatus
      have hu := (hruling.ruled i x hx).mp ha
      have hv := hverdict ha hu
      -- the first operation decides the instance, or it is left to the others to do so
      have hdecide : ∀ (status : InstanceStatus) (P : WorkflowStore → Prop), status ≠ .active →
          (x₁.status = status ↔ P (op.perform e).2.workflows) →
          (x₁.status = .active → (x'.status = status ↔ FirstDecided P i rest (op.perform e).2)) →
          (x'.status = status ↔ FirstDecided P i (op :: rest) e) := by
        intro status P hne hP hrest
        rw [firstDecided_cons]
        by_cases ha₁ : x₁.status = .active
        · rw [hrest ha₁]
          refine ⟨.inr, fun h => h.resolve_left fun hnow => hne ?_⟩
          exact (hP.mpr hnow.2).symm.trans ha₁
        · rw [hkeep' ha₁, hP]
          refine ⟨fun hnow => .inl ⟨hu, hnow⟩, fun h => (h.resolve_right ?_).2⟩
          exact not_firstDecided hruling₁ fun hu₁ => ha₁ (hv.active_iff.mpr hu₁)
      exact ⟨hdecide _ _ nofun hv.failed_iff fun ha₁ => (hfirst ha₁).1,
        hdecide _ _ nofun hv.completed_iff fun ha₁ => (hfirst ha₁).2⟩

/-- The news that the form of a permit has failed, for the first instance that an engine makes. -/
def withdrawn : Notification := ⟨⟨"$1-apply"⟩, some "FAILED", none, none, {}⟩

/-- When the form of a permit fails, the permit does. -/
theorem status_follows_first_decision_withdrawn :
    ∃ x', (after [.notify withdrawn] opened).workflows.instances.get? (.nth 1) = some x' ∧
      x'.status = .failed := by
  have hreach : Reaches (fun _ _ => True) (ofCapacity 1 1) opened :=
    .step (.step .refl _ trivial) .deliver trivial
  have hstatus : (opened.workflows.instances.get? (.nth 1)).map (·.status) = some .active := by cbv
  obtain ⟨x, hx, ha⟩ := Option.map_eq_some_iff.mp hstatus
  obtain ⟨y, hy, hundecided, -⟩ := status_follows_first_decision hreach hx []
  obtain rfl : x = y := Option.some.inj (hx.symm.trans hy)
  have hnode : ((after [.notify withdrawn] opened).workflows.nodes.get? ⟨"$1-apply"⟩).map
      (fun n => (n.owner.instanceId, n.state)) = some (.nth 1, .failed) := by
    cbv
  obtain ⟨n, hn, hshows⟩ := Option.map_eq_some_iff.mp hnode
  obtain ⟨x', hx', -, -, hfirst⟩ :=
    status_follows_first_decision hreach hx [.notify withdrawn]
  refine ⟨x', hx', (hfirst ha).1.mpr ⟨[], _, [], rfl, hundecided.mp ha, _, n, hn, ?_⟩⟩
  exact Prod.mk.inj hshows

end Engine

end Clearance
