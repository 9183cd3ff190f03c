import Clearance.Proofs.Engine.Refusal
import Clearance.Proofs.Engine.Registration
import Clearance.Proofs.Task.Opening

/-!
# Clearance — Proofs — Engine — An instance is made whole, or not at all

The tasks of the starting nodes are activated before the instance is committed, so a creation that
fails may leave some of them behind, and notifications of them in the mailbox.

* `Engine.Vacant`: a node whose id was given and that is not there.  It will never be.
* `Engine.Stray`: a notification of such a node, which is refused whenever it is handled.
* `Engine.consumed`: a number of steps of the consumer.
* `Engine.Incepted`, `Engine.Abandoned`: what a creation leaves that succeeds, and one that fails.
* `Engine.created_or_abandoned`: in an engine that is reached, every creation ends so.
-/

namespace Clearance

namespace WorkflowStore

/-- What the store holds, without the number of calls that were made to it. -/
def contents (s : WorkflowStore) : WorkflowStore := { s with calls := 0 }

section Contents

variable {s t : WorkflowStore}

theorem nodes_of_contents (h : t.contents = s.contents) : t.nodes = s.nodes :=
  congrArg (·.nodes) h

theorem instances_of_contents (h : t.contents = s.contents) : t.instances = s.instances :=
  congrArg (·.instances) h

end Contents

/-- With an instance that is committed, its nodes are listed, and for others what was. -/
theorem nodesOf?_commit {s : WorkflowStore} (h : s.Sound) {i : WorkflowInstance}
    {nodes : List WorkflowNode} (hc : s.conflict? i nodes = none)
    (hd : (nodes.map (·.id)).Nodup) (k : InstanceId) :
    (s.commit i nodes).nodesOf? k = if k = i.id then some nodes else s.nodesOf? k := by
  by_cases hk : k = i.id
  · subst hk
    have hall : nodes.filterMap (fun n => (s.commit i nodes).nodes.get? n.id) = nodes.map id :=
      List.filterMap_eq_map_iff_forall_eq_some.mpr fun n hn =>
        (get?_commit_eq_some hc hd).mpr (.inl ⟨hn, rfl⟩)
    rw [if_pos rfl, nodesOf?, members_commit_self, Option.map_some, List.filterMap_map]
    exact congrArg some (hall.trans (List.map_id nodes))
  · rw [if_neg hk, nodesOf?, nodesOf?, members_commit_ne hk]
    cases hids : s.members.get? k with
    | none => rfl
    | some ids =>
        refine congrArg some (List.filterMap_congr fun id hid => ?_)
        obtain ⟨n, hn, -⟩ := h.stored k ids hids id hid
        rw [hn]
        exact (get?_commit_eq_some hc hd).mpr (.inr hn)

end WorkflowStore

namespace Engine

open WorkflowStore Workshop

/-! ### Nodes that never come to be -/

/-- The node is of an instance whose id was given, and it is not there. -/
structure Vacant (e : Engine) (id : NodeId) : Prop where
  spent : id.Among e.instancesMade
  absent : e.workflows.nodes.get? id = none

/-- A notification that a task sent whose node is not there and never will be. -/
structure Stray (e : Engine) (note : Notification) : Prop where
  vacant : e.Vacant note.nodeId
  named : ∃ l : Lifecycle, note.lifecycle = some l.text

section Strays

variable {e e₁ e' : Engine} {id : NodeId} {note : Notification} {op : Op}
  {admits : Engine → Op → Prop}

/-- No id is given twice, so a node that was not made with its instance is never made. -/
theorem Vacant.perform (h : e.Vacant id) (hs : e.Steady) (op : Op) :
    (op.perform e).2.Vacant id := by
  obtain ⟨as, hc⟩ := exists_course hs op
  have hr := hc.renumbered hs
  refine ⟨h.spent.mono hr.le, Option.eq_none_iff_forall_ne_some.mpr fun n hn => ?_⟩
  rcases hr.nodes id n hn with ⟨m, hm⟩ | ⟨-, hnew⟩
  · cases h.absent.symm.trans hm
  · exact hnew h.spent

theorem Stray.perform (h : e.Stray note) (hs : e.Steady) (op : Op) : (op.perform e).2.Stray note :=
  ⟨h.vacant.perform hs op, h.named⟩

theorem Stray.reaches (h : e.Stray note) (hs : e.Steady) (hr : Reaches admits e e') :
    e'.Steady ∧ e'.Stray note := by
  refine hr.invariant (I := fun e => e.Steady ∧ e.Stray note) ⟨hs, h⟩ ?_
  intro e₁ op _ k
  exact ⟨k.1.effect (effect_perform k.1 op), k.2.perform k.1 op⟩

theorem Stray.brings (h : e.Stray note) {k : Notification} (hb : op.Brings k e e₁) :
    e₁.Stray note := by
  refine ⟨⟨?_, ?_⟩, h.named⟩
  · rw [hb.made]
    exact h.vacant.spent
  · rw [hb.rest.1]
    exact h.vacant.absent

/-- Whenever it is handled, it is refused as one of a node that is not found. -/
theorem Stray.refused (h : e.Stray note) (hs : e.Steady) :
    ∃ calls, (handle note).go e = (.error (.noNode note.nodeId), e.asked calls) := by
  obtain ⟨l, hl⟩ := h.named
  refine handle_refused hs.sound hs.unfaulted (.noNode (fun text htext => ⟨l, ?_⟩) h.vacant.absent)
  exact Option.some.inj (hl.symm.trans htext)

end Strays

/-! ### Steps of the consumer -/

/-- The engine once the consumer has taken so many notifications, as far as there are any. -/
def consumed (k : Nat) (e : Engine) : Engine := (drain process k e).2

theorem drain_of_empty {e : Engine} (hq : e.workshop.mailbox.queue = []) (k : Nat) :
    drain process k e = ([], e) := by
  cases k with
  | zero => rfl
  | succ k =>
      rcases receive_eq e with ⟨-, he⟩ | ⟨note, e₁, ht, -⟩
      · rw [drain, he]
      · cases hq.symm.trans ht.queue

/-- The first turn takes what is first in the queue. -/
theorem drain_succ {e : Engine} {note : Notification} {rest : List Notification}
    (hq : e.workshop.mailbox.queue = note :: rest) :
    ∃ r, ∀ k, drain process (k + 1) e =
      ((note, r) :: (drain process k (Op.deliver.perform e).2).1,
        (drain process k (Op.deliver.perform e).2).2) := by
  rcases receive_eq e with ⟨hnone, -⟩ | ⟨note', e₁, ht, he⟩
  · cases hq.symm.trans hnone
  · obtain ⟨rfl, -⟩ := List.cons.inj (hq.symm.trans ht.queue)
    refine ⟨((process note).go e₁).1, fun k => ?_⟩
    rw [drain, he, Op.perform, he]

theorem consumed_of_empty {e : Engine} (h : e.workshop.mailbox.queue = []) (k : Nat) :
    e.consumed k = e := by
  rw [consumed, drain_of_empty h]

theorem consumed_succ (k : Nat) (e : Engine) :
    e.consumed (k + 1) = (Op.deliver.perform e).2.consumed k := by
  rcases receive_eq e with ⟨hq, he⟩ | ⟨note, e₁, -, he⟩
  · rw [Op.perform, he, consumed_of_empty hq, consumed_of_empty hq]
  · rw [Op.perform, consumed, drain, he]
    rfl

theorem consumed_add (j k : Nat) (e : Engine) : e.consumed (j + k) = (e.consumed j).consumed k := by
  induction j generalizing e with
  | zero =>
      rw [Nat.zero_add]
      rfl
  | succ j ih => rw [Nat.succ_add, consumed_succ, consumed_succ, ih]

section Steps

variable {e f : Engine} {note : Notification} {q r : List Notification}

/-- The consumer takes what is first in the queue. -/
theorem deliver_first (hq : e.workshop.mailbox.queue = note :: q) :
    ∃ e₁, Op.deliver.Brings note e e₁ ∧ e₁.workshop.mailbox.queue = q ∧
      (Op.deliver.perform e).2.workflows = ((handle note).go e₁).2.workflows ∧
      (Op.deliver.perform e).2.workshop.mailbox = ((handle note).go e₁).2.workshop.mailbox := by
  rcases receive_eq e with ⟨hnone, -⟩ | ⟨note', e₁, ht, he⟩
  · rw [hq] at hnone
    cases hnone
  · obtain ⟨rfl, rfl⟩ := List.cons.inj (hq.symm.trans ht.queue)
    rw [Op.perform, he, process_go]
    exact ⟨e₁, ht, rfl, rfl, rfl⟩

/-- What is sent while a notification is handled is queued behind the others. -/
theorem handle_queue (h : e.Steady) (note : Notification) :
    ∃ sent, ((handle note).go e).2.workshop.mailbox.queue = e.workshop.mailbox.queue ++ sent := by
  have hhandled := handle_handled h.sound h.unfaulted note
  revert hhandled
  rcases (handle note).go e with ⟨r, e'⟩
  intro hhandled
  cases hhandled with
  | refused _ => exact ⟨[], (List.append_nil _).symm⟩
  | @carried _ m x calls _ _ _ =>
      have hserved := (inits_registering e note m x calls).served (P := fun _ => True) h.coherent
        fun _ _ => trivial
      obtain ⟨sent, hsent, -⟩ := hserved.queue
      exact ⟨sent, hsent⟩

/-- What a notification does to the workflows depends on the workflows alone. -/
theorem handle_contents (he : e.Steady) (hf : f.Steady)
    (hs : f.workflows.contents = e.workflows.contents) (note : Notification) :
    ((handle note).go f).2.workflows.contents = ((handle note).go e).2.workflows.contents := by
  have hnodes := nodes_of_contents hs
  have hin := instances_of_contents hs
  have hhandled := handle_handled he.sound he.unfaulted note
  revert hhandled
  rcases (handle note).go e with ⟨r, e'⟩
  intro hhandled
  cases hhandled with
  | refused hr =>
      obtain ⟨calls, hgo⟩ := handle_refused hf.sound hf.unfaulted (hnodes ▸ hr)
      rw [hgo]
      exact hs
  | carried ht hx _ =>
      obtain ⟨y, calls, hy, -, hgo⟩ := handle_taken hf.sound hf.unfaulted (ht.of_nodes hnodes)
      obtain rfl := Option.some.inj (hx.symm.trans (hin ▸ hy))
      rw [hgo]
      exact congrArg (WorkflowStore.settle · note _ _) hs

/-- While the notifications are taken that both have queued, what the workflows hold stays the
same. -/
theorem consumed_alike (he : e.Steady) (hf : f.Steady) {x y : List Notification}
    (hqe : e.workshop.mailbox.queue = q ++ x) (hqf : f.workshop.mailbox.queue = q ++ y)
    (hs : f.workflows.contents = e.workflows.contents) {k : Nat} (hk : k ≤ q.length) :
    (f.consumed k).Steady ∧ (f.consumed k).workflows.contents = (e.consumed k).workflows.contents ∧
      ∃ sent, (f.consumed k).workshop.mailbox.queue = q.drop k ++ y ++ sent := by
  induction k generalizing e f q x y with
  | zero => exact ⟨hf, hs, [], by rw [List.drop_zero, List.append_nil]; exact hqf⟩
  | succ k ih =>
      cases q with
      | nil => exact absurd hk (Nat.not_succ_le_zero k)
      | cons note q =>
          obtain ⟨e₁, hbe, hqe₁, hwe, hme⟩ := deliver_first hqe
          obtain ⟨f₁, hbf, hqf₁, hwf, hmf⟩ := deliver_first hqf
          obtain ⟨xs, hxs⟩ := handle_queue (he.brings hbe) note
          obtain ⟨ys, hys⟩ := handle_queue (hf.brings hbf) note
          rw [← hme, hqe₁] at hxs
          rw [← hmf, hqf₁] at hys
          have hsame := handle_contents (he.brings hbe) (hf.brings hbf)
            (by rw [hbe.rest.1, hbf.rest.1, hs]) note
          rw [← hwe, ← hwf] at hsame
          obtain ⟨hsteady, hcontents, sent, hqueue⟩ := ih
            (he.effect (effect_perform he .deliver)) (hf.effect (effect_perform hf .deliver))
            (hxs.trans (List.append_assoc _ _ _)) (hys.trans (List.append_assoc _ _ _)) hsame
            (Nat.le_of_succ_le_succ hk)
          rw [consumed_succ, consumed_succ]
          refine ⟨hsteady, hcontents, ys ++ sent, ?_⟩
          rw [hqueue, List.drop_succ_cons]
          simp only [List.append_assoc]

/-- A stray is taken to no effect. -/
theorem Stray.deliver (h : e.Stray note) (hs : e.Steady)
    (hq : e.workshop.mailbox.queue = note :: q) :
    (Op.deliver.perform e).2.workflows.contents = e.workflows.contents ∧
      (Op.deliver.perform e).2.workshop.mailbox.queue = q := by
  obtain ⟨e₁, hb, hq₁, hw, hm⟩ := deliver_first hq
  obtain ⟨calls, hgo⟩ := (h.brings hb).refused (hs.brings hb)
  rw [hw, hm, hgo, ← hb.rest.1]
  exact ⟨rfl, hq₁⟩

theorem Stray.consumed (h : e.Stray note) (hs : e.Steady) (k : Nat) :
    (e.consumed k).Stray note := by
  induction k generalizing e with
  | zero => exact h
  | succ k ih =>
      rw [consumed_succ]
      exact ih (h.perform hs .deliver) (hs.effect (effect_perform hs .deliver))

/-- Strays are taken to no effect, one after the other. -/
theorem consumed_strays (hs : e.Steady) (hstrays : ∀ note ∈ q, e.Stray note)
    (hq : e.workshop.mailbox.queue = q ++ r) {k : Nat} (hk : k ≤ q.length) :
    (e.consumed k).workflows.contents = e.workflows.contents ∧
      (e.consumed k).workshop.mailbox.queue = q.drop k ++ r := by
  induction k generalizing e q with
  | zero => exact ⟨rfl, hq⟩
  | succ k ih =>
      cases q with
      | nil => exact absurd hk (Nat.not_succ_le_zero k)
      | cons note q =>
          obtain ⟨hfirst, hrest⟩ := List.forall_mem_cons.mp hstrays
          obtain ⟨hcontents, hqueue⟩ := hfirst.deliver hs hq
          rw [consumed_succ, ← hcontents, List.drop_succ_cons]
          exact ih (hs.effect (effect_perform hs .deliver)) (fun n hn => (hrest n hn).perform hs _)
            hqueue (Nat.le_of_succ_le_succ hk)

/-- Where only strays are queued, no number of steps of the consumer has any effect. -/
theorem consumed_only_strays (hs : e.Steady)
    (hstrays : ∀ note ∈ e.workshop.mailbox.queue, e.Stray note) (k : Nat) :
    (e.consumed k).workflows.contents = e.workflows.contents := by
  have hq := (List.append_nil e.workshop.mailbox.queue).symm
  by_cases hk : k ≤ e.workshop.mailbox.queue.length
  · exact (consumed_strays hs hstrays hq hk).1
  · obtain ⟨j, rfl⟩ := Nat.exists_eq_add_of_le (Nat.le_of_not_le hk)
    obtain ⟨hcontents, hempty⟩ := consumed_strays hs hstrays hq le_rfl
    rw [List.drop_length, List.nil_append] at hempty
    rw [consumed_add, consumed_of_empty hempty, hcontents]

end Steps

/-! ### What a creation leaves -/

/-- The instance is there, with one node for each template, and everything else as it was.  Of its
nodes those without dependencies have been started, and no other one has a task. -/
structure Incepted (d : WorkflowDefinition) (c : Created) (e e' : Engine) : Prop where
  nodes : c.nodes = d.templates.map c.inst.nodeFor
  distinct : (c.nodes.map (·.id)).Nodup
  fresh : e.workflows.instances.get? c.inst.id = none ∧
    ∀ n ∈ c.nodes, e.workflows.nodes.get? n.id = none
  instances : ∀ i, e'.workflows.instances.get? i =
    if i = c.inst.id then some c.inst else e.workflows.instances.get? i
  listed : ∀ i, e'.workflows.nodesOf? i =
    if i = c.inst.id then some c.nodes else e.workflows.nodesOf? i
  stored : ∀ id n, e'.workflows.nodes.get? id = some n ↔
    n ∈ c.nodes ∧ n.id = id ∨ e.workflows.nodes.get? id = some n
  started : ∀ n ∈ c.nodes, n.dependencies = [] →
    ∃ r, e'.workshop.store.records.get? n.id = some r ∧ r.state = .inProgress
  waiting : ∀ n ∈ c.nodes, n.dependencies ≠ [] → e'.workshop.store.records.get? n.id = none

/-- The workflows hold what they held, but notifications of tasks that were activated may have been
queued.  Whatever is done then, these are refused.  Until the consumer has taken what is queued, or
for any number of its steps if nothing was queued before, it does to the workflows what it would
have done without the creation. -/
structure Abandoned (seeds : List Notification) (e e' : Engine) : Prop where
  contents : e'.workflows.contents = e.workflows.contents
  queued : e'.workshop.mailbox.queue = e.workshop.mailbox.queue ++ seeds
  refused : ∀ admits e₂, Reaches admits e' e₂ → ∀ note ∈ seeds,
    e₂.workflows.nodes.get? note.nodeId = none ∧
      ∃ calls, (handle note).go e₂ = (.error (.noNode note.nodeId), e₂.asked calls)
  consumed : ∀ k, k ≤ e'.workshop.mailbox.queue.length ∨ e.workshop.mailbox.queue = [] →
    (e'.consumed k).workflows.contents =
      (e.consumed (min k e.workshop.mailbox.queue.length)).workflows.contents

section Creation

variable {e e' : Engine} {kind : InstanceKind} {d : WorkflowDefinition} {globalContext : Context}

/-- An instance whose starting tasks were all activated. -/
theorem incepted (he : e.Steady) {c : Created} {w : Workshop} {order : List TemplateId}
    (hd : c = e.drafted kind d globalContext) (hv : d.validate = .ok order)
    (hc : e.workflows.conflict? c.inst c.nodes = none)
    (hi : (initAll c.starts).go e.workshop = (.ok (), w))
    (hfresh : ∀ t,
      e.workshop.store.records.get? ((InstanceId.nth (e.instancesMade + 1)).node t) = none) :
    Incepted d c e ⟨w, e.workflows.called.commit c.inst c.nodes, e.instancesMade + 1⟩ := by
  have hwell : c.Well := hd ▸ e.well_drafted kind globalContext hv
  have hnew : ∀ n ∈ c.nodes, e.workshop.store.records.get? n.id = none := by
    intro n hn
    obtain ⟨t, ht⟩ := hwell.named n hn
    rw [ht, hd]
    exact hfresh t
  have hstate : ∀ n ∈ c.nodes, n.state = if n.dependencies.isEmpty then .ready else .locked :=
    hwell.state
  have hserved := (Inits.of_initAll hi).served (P := (· ∈ c.starts.map (·.nodeId))) he.coherent
    fun a ha => List.mem_map_of_mem ((attempted_initial _ _).subset ha)
  refine ⟨by rw [hd]; rfl, hwell.distinct, new_of_conflict? hc, fun i => ?_, fun i => ?_,
    fun id n => ?_, fun n hn hdeps => ?_, fun n hn hdeps => ?_⟩
  · exact Table.get?_insert _ _ _ _
  · exact nodesOf?_commit (sound_same he.sound (Becomes.refl _).called) hc hwell.distinct i
  · exact get?_commit_eq_some (s := e.workflows.called) hc hwell.distinct
  · have hready : n.state = .ready := by
      rw [hstate n hn, hdeps]
      rfl
    have hstart : n.id ∈ c.starts.map (·.nodeId) :=
      Created.mem_ids_starts.mpr ⟨n, hn, rfl, hready⟩
    obtain ⟨a, ha, hid⟩ := List.mem_map.mp hstart
    have hopen := initAll_opens he.coherent hwell.nodup_starts (fun a ha => ?_) hi ha
    · rw [hid] at hopen
      exact get?_of_lifecycle hopen (by decide)
    · obtain ⟨m, hm, rfl, -⟩ := Created.of_mem_starts ha
      exact hnew m hm
  · refine (hserved.elsewhere fun hstart => ?_).trans (hnew n hn)
    obtain ⟨m, hm, hid, hready⟩ := Created.mem_ids_starts.mp hstart
    obtain rfl := List.inj_on_of_nodup_map hwell.distinct hm hn hid
    rw [hstate m hm, if_neg (by simpa using hdeps)] at hready
    cases hready

/-- What is left is abandoned if only notifications of nodes that will never be were queued. -/
theorem abandoned (he : e.Steady) (he' : e'.Steady) {seeds : List Notification}
    (hs : e'.workflows.contents = e.workflows.contents)
    (hq : e'.workshop.mailbox.queue = e.workshop.mailbox.queue ++ seeds)
    (hstrays : ∀ note ∈ seeds, e'.Stray note) : Abandoned seeds e e' := by
  refine ⟨hs, hq, fun admits e₂ hr note hn => ?_, fun k hk => ?_⟩
  · obtain ⟨he₂, hstray⟩ := (hstrays note hn).reaches he' hr
    exact ⟨hstray.vacant.absent, hstray.refused he₂⟩
  · rcases hk with hk | hempty
    · have hqe := (List.append_nil e.workshop.mailbox.queue).symm
      by_cases hfirst : k ≤ e.workshop.mailbox.queue.length
      · rw [min_eq_left hfirst]
        exact (consumed_alike he he' hqe hq hs hfirst).2.1
      · -- what was queued before has been taken, and the strays come next
        obtain ⟨hsteady, hcontents, sent, hqueue⟩ := consumed_alike he he' hqe hq hs le_rfl
        obtain ⟨j, rfl⟩ := Nat.exists_eq_add_of_le (Nat.le_of_not_le hfirst)
        rw [List.drop_length, List.nil_append] at hqueue
        rw [hq, List.length_append] at hk
        rw [min_eq_right (Nat.le_of_not_le hfirst), consumed_add, ← hcontents]
        exact (consumed_strays hsteady (fun note hn => (hstrays note hn).consumed he' _) hqueue
          (Nat.le_of_add_le_add_left hk)).1
    · rw [hempty, List.nil_append] at hq
      rw [hempty, List.length_nil, Nat.min_zero]
      exact (consumed_only_strays he' (hq ▸ hstrays) k).trans hs

/-- **Creation.** In an engine that is reached, whatever happened there before, an instance is made
whole or not at all. -/
theorem created_or_abandoned {containers notifications : Nat} {admits : Engine → Op → Prop}
    (h : Reaches admits (ofCapacity containers notifications) e)
    (hfresh : ∀ t,
      e.workshop.store.records.get? ((InstanceId.nth (e.instancesMade + 1)).node t) = none)
    (kind : InstanceKind) (d : WorkflowDefinition) (globalContext : Context) :
    (createInstance kind d globalContext).Ends e
      (fun c e' => c.inst = ⟨.nth (e.instancesMade + 1), kind, d.name, globalContext, .active⟩ ∧
        Incepted d c e e')
      (fun _ e' => ∃ seeds, Abandoned seeds e e') := by
  have he := (steady_ofCapacity containers notifications).reaches h
  have hcreating := createInstance_creating he.unfaulted kind d globalContext
  refine Act.ends_iff.mpr ⟨fun c e' hgo => ?_, fun f e' hgo => ?_⟩
  · rw [hgo] at hcreating
    cases hcreating with
    | founded hv hd hc hi => exact ⟨by rw [hd]; rfl, incepted he hd hv hc hi hfresh⟩
  · have he' : e'.Steady := by
      have heffect := effect_perform he (.create kind d globalContext)
      rw [Op.perform, hgo] at heffect
      exact he.effect heffect
    rw [hgo] at hcreating
    cases hcreating with
    | invalid _ => exact ⟨[], abandoned he he rfl (List.append_nil _).symm (List.forall_mem_nil _)⟩
    | conflicting _ _ _ =>
        exact ⟨[], abandoned he he' rfl (List.append_nil _).symm (List.forall_mem_nil _)⟩
    | aborted hv hd hc hi =>
        have hserved := (Inits.of_initAll hi).served he.coherent fun a ha =>
          List.mem_map_of_mem ((attempted_initial _ _).subset ha)
        obtain ⟨seeds, hq, hseeds⟩ := hserved.queue
        refine ⟨seeds, abandoned he he' rfl hq fun note hn => ?_⟩
        -- what was queued is of nodes that the store does not have
        obtain ⟨hstart, hnamed⟩ := hseeds note hn
        obtain ⟨m, hm, hid, -⟩ := Created.mem_ids_starts.mp hstart
        refine ⟨⟨?_, ?_⟩, hnamed⟩
        · rw [← hid]
          exact (fresh_of_drafted (hd ▸ hm)).1
        · rw [← hid]
          exact (new_of_conflict? hc).2 m hm

end Creation

/-- A permit with a visit for which no event is told. -/
def visited : WorkflowDefinition :=
  { permit with templates := permit.templates ++ [NodeTemplate.ofKind ⟨"visit"⟩ .waitForEvent] }

theorem visited_valid : visited.validate = .ok [⟨"visit"⟩, ⟨"apply"⟩, ⟨"pay"⟩] := by cbv

/-- The form is opened before the visit fails, and what was queued of it is refused ever after. -/
theorem created_or_abandoned_visited :
    ∃ f e' seeds, (createInstance .consignment visited {}).go (ofCapacity 1 1) = (.error f, e') ∧
      seeds.map (·.nodeId) = [⟨"$1-apply"⟩] ∧ Abandoned seeds (ofCapacity 1 1) e' := by
  have hreach : Reaches (fun _ _ => True) (ofCapacity 1 1) (ofCapacity 1 1) := .refl
  have h := created_or_abandoned hreach (fun _ => rfl) .consignment visited {}
  have hfails :
      ((createInstance .consignment visited {}).go (ofCapacity 1 1)).1.isOk = false := by
    rw [createInstance_of_valid visited_valid]
    decide +kernel
  have hqueue : (((createInstance .consignment visited {}).go (ofCapacity 1 1)).2.workshop.mailbox
      |>.queue.map (·.nodeId)) = [⟨"$1-apply"⟩] := by
    rw [createInstance_of_valid visited_valid]
    decide +kernel
  rcases hgo : (createInstance .consignment visited {}).go (ofCapacity 1 1) with ⟨f | c, e'⟩
  · rw [hgo] at hqueue
    obtain ⟨seeds, habandoned⟩ := (Act.ends_iff.mp h).2 f e' hgo
    have hseeds : e'.workshop.mailbox.queue = seeds := habandoned.queued
    exact ⟨f, e', seeds, rfl, hseeds ▸ hqueue, habandoned⟩
  · rw [hgo] at hfails
    cases hfails

end Engine

end Clearance
