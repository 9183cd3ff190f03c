import Clearance.Proofs.Engine.Course
import Clearance.Proofs.Engine.Gate
import Clearance.Proofs.Engine.Onward

/-!
# Clearance — Proofs — Engine — Nodes that are handed to the task layer

* `Engine.HandsOver`: which activations one operation makes, and what they ask for.
* `Engine.Course.handsOver`: it is the nodes that come to be unlocked, each of them once.
* `Engine.Hands`: a run of operations, and all the activations that the workflow layer makes in it.
* `Engine.handed_over_once`: over a whole run, a node is activated once if it is not locked, and
  never if it is.
-/

namespace Clearance

/-! ### The ids of nodes -/

/-- What stands before the first hyphen in the id of a node tells the instance. -/
theorem InstanceId.takeWhile_node_nth (m : Nat) (t : TemplateId) :
    ((nth m).node t).text.toList.takeWhile (· ≠ '-') = '$' :: Nat.toDigits 10 m := by
  have hdigits : ∀ c ∈ '$' :: Nat.toDigits 10 m, decide (c ≠ '-') = true := by
    rw [List.forall_mem_cons]
    refine ⟨by decide, fun c hc => decide_eq_true ?_⟩
    rintro rfl
    exact Bool.false_ne_true (Nat.isDigit_of_mem_toDigits (by decide) (by decide) hc)
  have htext : ((nth m).node t).text.toList =
      ('$' :: Nat.toDigits 10 m) ++ '-' :: t.text.toList := by
    simp [nth, node, Nat.toString_eq_repr, Nat.toList_repr]
  rw [htext, List.takeWhile_append_of_pos hdigits]
  simp

theorem InstanceId.eq_of_node_nth {m n : Nat} {t u : TemplateId}
    (h : (nth m).node t = (nth n).node u) : m = n := by
  have hpart := takeWhile_node_nth m t
  rw [h, takeWhile_node_nth, List.cons_inj_right, ← Nat.toList_repr, ← Nat.toList_repr] at hpart
  exact (Nat.repr_inj.mp (String.toList_inj.mp hpart)).symm

/-- The id is one of a node of the first `made` instances. -/
def NodeId.Among (made : Nat) (id : NodeId) : Prop :=
  ∃ k t, k ≤ made ∧ id = (InstanceId.nth k).node t

theorem NodeId.Among.mono {made made' : Nat} {id : NodeId} (h : id.Among made)
    (hle : made ≤ made') : id.Among made' := by
  obtain ⟨k, t, hk, rfl⟩ := h
  exact ⟨k, t, hk.trans hle, rfl⟩

/-- A new instance has new ids for its nodes. -/
theorem NodeId.not_among_node (made : Nat) (t : TemplateId) :
    ¬ NodeId.Among made ((InstanceId.nth (made + 1)).node t) := by
  rintro ⟨k, u, hk, h⟩
  have hlast := InstanceId.eq_of_node_nth h
  omega

/-! ### The starting nodes of an instance -/

namespace Created

variable {c : Created}

theorem mem_ids_starts {id : NodeId} :
    id ∈ c.starts.map (·.nodeId) ↔ ∃ n ∈ c.nodes, n.id = id ∧ n.state = .ready := by
  constructor
  · intro h
    obtain ⟨a, ha, rfl⟩ := List.mem_map.mp h
    obtain ⟨n, hn, rfl, hready⟩ := of_mem_starts ha
    exact ⟨n, hn, rfl, hready⟩
  · rintro ⟨n, hn, rfl, hready⟩
    refine List.mem_map.mpr ⟨_, List.mem_map_of_mem (List.mem_filter.mpr ⟨hn, ?_⟩), rfl⟩
    exact beq_iff_eq.mpr hready

theorem Well.nodup_starts (h : c.Well) : (c.starts.map (·.nodeId)).Nodup := by
  have hids : c.starts.map (·.nodeId) = (c.nodes.filter (·.state == .ready)).map (·.id) := by
    rw [starts, List.map_map]
    rfl
  rw [hids]
  exact (List.filter_sublist.map _).nodup h.distinct

end Created

/-! ### The dependents that a node unlocks -/

namespace WorkflowStore

variable {s : WorkflowStore} {n m : WorkflowNode}

theorem ascending_unlockedBy (s : WorkflowStore) (m : WorkflowNode) :
    ((s.unlockedBy m).map (·.id.text)).Pairwise (· ≤ ·) := by
  rw [List.pairwise_map]
  unfold unlockedBy
  split
  · exact pairwise_mergeSort_text (fun n : WorkflowNode => n.id.text) _
  · exact .nil

theorem map_nodeId_registrations (s : WorkflowStore) (note : Notification) (m : WorkflowNode)
    (x : WorkflowInstance) :
    (s.registrations note m x).map (·.nodeId) = (s.unlockedBy m).map (·.id) := by
  rw [registrations, List.map_map]
  rfl

/-- A dependent is of the instance that its prerequisite is of. -/
theorem Sound.owner_of_mem_unlockedBy (h : s.Sound) (hn : s.nodes.get? m.id = some n)
    (hm : n.Onward m) (hfit : m.Fit) {k : WorkflowNode} (hk : k ∈ s.unlockedBy m) :
    k.owner = m.owner := by
  obtain ⟨-, -, ho⟩ := (h.mem_unlockedBy hn hm hfit).mp hk
  obtain ⟨-, hget, -⟩ := h.of_mem_unlockedBy hn hm hfit hk
  obtain ⟨d, hd, hid⟩ := List.any_eq_true.mp (WorkflowNode.opensOn_iff.mp ho).2.1
  obtain ⟨n', hn', howner⟩ := h.inside k.id k hget d hd
  rw [eq_of_beq hid] at hn'
  obtain rfl := Option.some.inj (hn.symm.trans hn')
  obtain ⟨_, _, _, rfl⟩ := hm.kin
  exact howner.symm

end WorkflowStore

namespace Engine

open WorkflowStore Workshop

/-! ### One operation -/

/-- What the activations that the workflow layer makes in one operation are. -/
structure HandsOver (e : Engine) (op : Op) (as : List Activation) (e' : Engine) : Prop where
  course : Course e op as e'
  /-- No node is activated twice. -/
  distinct : (as.map (·.nodeId)).Nodup
  /-- Of the nodes there are then, those are activated that are unlocked and were not before. -/
  unlocked : ∀ id n', e'.workflows.nodes.get? id = some n' →
    (id ∈ as.map (·.nodeId) ↔
      n'.state ≠ .locked ∧ ∀ n, e.workflows.nodes.get? id = some n → n.state = .locked)
  /-- A node is activated as it is stored then, and with the context that its instance has then. -/
  request : ∀ a ∈ as, ∀ n', e'.workflows.nodes.get? a.nodeId = some n' →
    n'.state = .ready ∧ ∃ x', e'.workflows.instances.get? n'.owner.instanceId = some x' ∧
      a = n'.activation x'.globalContext
  /-- The dependents that a notification unlocks are activated in the order of their ids. -/
  ascending : (∀ kind d globalContext, op ≠ .create kind d globalContext) →
    (as.map (·.nodeId.text)).Pairwise (· ≤ ·)

/-- A node is activated once in an operation that unlocks it, and in no other. -/
theorem HandsOver.count {e e' : Engine} {op : Op} {as : List Activation} (h : HandsOver e op as e')
    {id : NodeId} {n' : WorkflowNode} (hn' : e'.workflows.nodes.get? id = some n') :
    (as.map (·.nodeId)).count id =
      if n'.state ≠ .locked ∧ ∀ n, e.workflows.nodes.get? id = some n → n.state = .locked
      then 1 else 0 := by
  rw [List.Nodup.count h.distinct]
  exact if_congr (h.unlocked id n' hn') rfl rfl

/-- An operation that leaves the nodes as they are and activates none of theirs. -/
theorem Course.handsOver_still {e e' : Engine} {op : Op} {as : List Activation}
    (hc : Course e op as e') (hn : e'.workflows.nodes = e.workflows.nodes)
    (hd : (as.map (·.nodeId)).Nodup)
    (hno : ∀ id n, e.workflows.nodes.get? id = some n → id ∉ as.map (·.nodeId))
    (hop : (∀ kind d globalContext, op ≠ .create kind d globalContext) → as = []) :
    HandsOver e op as e' where
  course := hc
  distinct := hd
  unlocked id n' hn' := by
    rw [hn] at hn'
    refine ⟨fun hid => absurd hid (hno id n' hn'), fun h => ?_⟩
    exact absurd (h.2 n' hn') h.1
  request a ha n' hn' := by
    rw [hn] at hn'
    exact absurd (List.mem_map_of_mem ha) (hno _ n' hn')
  ascending h := by
    rw [hop h]
    exact .nil

section Courses

variable {e e' : Engine} {op : Op} {as : List Activation}

/-- A committed instance activates its ready nodes. -/
theorem Course.handsOver_founded {c : Created} (hc : Course e op c.starts e') (hw : c.Well)
    (hconflict : e.workflows.conflict? c.inst c.nodes = none)
    (hs : e'.workflows = e.workflows.called.commit c.inst c.nodes) {kind : InstanceKind}
    {d : WorkflowDefinition} {globalContext : Context} (hop : op = .create kind d globalContext) :
    HandsOver e op c.starts e' := by
  have hget : ∀ {id n}, e'.workflows.nodes.get? id = some n ↔
      n ∈ c.nodes ∧ n.id = id ∨ e.workflows.nodes.get? id = some n := by
    intro id n
    rw [hs]
    exact get?_commit_eq_some (s := e.workflows.called) hconflict hw.distinct
  have hnew : ∀ n ∈ c.nodes, e.workflows.nodes.get? n.id = none := (new_of_conflict? hconflict).2
  refine ⟨hc, hw.nodup_starts, fun id n' hn' => ?_, fun a ha n' hn' => ?_, fun hno => ?_⟩
  · rw [Created.mem_ids_starts]
    constructor
    · rintro ⟨k, hk, rfl, hready⟩
      refine ⟨?_, fun n hn => nomatch (hnew k hk).symm.trans hn⟩
      rcases hget.mp hn' with ⟨hmem, hid⟩ | hold
      · rw [List.inj_on_of_nodup_map hw.distinct hmem hk hid, hready]
        exact nofun
      · exact nomatch (hnew k hk).symm.trans hold
    · rintro ⟨hl, hbefore⟩
      rcases hget.mp hn' with ⟨hmem, rfl⟩ | hold
      · exact ⟨n', hmem, rfl, hw.ready hmem hl⟩
      · exact absurd (hbefore n' hold) hl
  · obtain ⟨k, hk, rfl, hready⟩ := Created.of_mem_starts ha
    have hsame : n' = k := by
      rcases hget.mp hn' with ⟨hmem, hid⟩ | hold
      · exact List.inj_on_of_nodup_map hw.distinct hmem hk hid
      · exact nomatch (hnew k hk).symm.trans hold
    rw [hsame]
    refine ⟨hready, c.inst, ?_, rfl⟩
    rw [hs, hw.owner k hk]
    exact Table.get?_insert_self _ _ _
  · exact absurd hop (hno _ _ _)

/-- A notification that is carried out activates the dependents that it unlocks. -/
theorem Course.handsOver_carried {note : Notification} {n m : WorkflowNode} {x : WorkflowInstance}
    (hc : Course e op (e.workflows.registrations note m x) e') (hsound : e.workflows.Sound)
    (ht : e.Takes note n m) (hl : n.state ≠ .locked)
    (hx : e.workflows.instances.get? m.owner.instanceId = some x)
    (hid : x.id = m.owner.instanceId) {calls : Nat}
    (hs : e'.workflows = { e.workflows.settle note m x with calls := calls }) :
    HandsOver e op (e.workflows.registrations note m x) e' := by
  have hfit := ht.fit hsound
  have hget : ∀ id, e'.workflows.nodes.get? id = Lookup.advance e.workflows.nodes.get? m id := by
    intro id
    rw [hs]
    exact (ht.becomes hsound hx hid).nodes id
  refine ⟨hc, ?_, fun id n' hn' => ?_, fun a ha n' hn' => ?_, fun _ => ?_⟩
  · rw [map_nodeId_registrations]
    exact hsound.nodup_unlockedBy ht.found ht.onward hfit
  · rw [map_nodeId_registrations]
    exact hsound.mem_ids_unlockedBy ht.found ht.onward hfit hl ((hget id).symm.trans hn')
  · obtain ⟨k, hk, rfl⟩ := List.mem_map.mp ha
    obtain rfl := Option.some.inj
      (((hget k.id).symm.trans hn').symm.trans
        (hsound.advance_of_mem_unlockedBy ht.found ht.onward hfit hk))
    refine ⟨rfl, x.take note m, ?_, rfl⟩
    have howner : k.opened.owner.instanceId = x.id := by
      rw [hid, ← hsound.owner_of_mem_unlockedBy ht.found ht.onward hfit hk]
      rfl
    rw [howner, hs]
    exact Table.get?_insert_self _ _ _
  · rw [registrations, List.map_map]
    exact ascending_unlockedBy _ _

/-! ### The numbers of the instances -/

/-- What the activations that are made rest on. -/
structure Numbered (e : Engine) : Prop where
  gating : e.Gating
  /-- The nodes are those of instances that were made. -/
  among : ∀ id n, e.workflows.nodes.get? id = some n → id.Among e.instancesMade

/-- The nodes that a definition would make next are those of a new instance. -/
theorem fresh_of_drafted {kind : InstanceKind} {d : WorkflowDefinition}
    {globalContext : Context} {n : WorkflowNode} (hn : n ∈ (e.drafted kind d globalContext).nodes) :
    n.id.Among (e.instancesMade + 1) ∧ ¬ n.id.Among e.instancesMade := by
  obtain ⟨t, -, rfl⟩ := List.mem_map.mp hn
  exact ⟨⟨e.instancesMade + 1, t.id, le_rfl, rfl⟩, NodeId.not_among_node e.instancesMade t.id⟩

theorem fresh_of_mem_starts {kind : InstanceKind} {d : WorkflowDefinition}
    {globalContext : Context} {a : Activation}
    (ha : a ∈ (e.drafted kind d globalContext).starts) :
    a.nodeId.Among (e.instancesMade + 1) ∧ ¬ a.nodeId.Among e.instancesMade := by
  obtain ⟨n, hn, rfl, -⟩ := Created.of_mem_starts ha
  exact fresh_of_drafted hn

/-- **Who is activated.** In an operation that brings no notification but a queued one, the workflow
layer activates the nodes that come to be unlocked. -/
theorem Course.handsOver (hc : Course e op as e') (h : e.Numbered) (hop : op.QueuedOnly) :
    HandsOver e op as e' := by
  cases id hc with
  | invalid _ => exact hc.handsOver_still rfl .nil (fun _ _ _ => List.not_mem_nil) fun _ => rfl
  | conflicting _ _ =>
      exact hc.handsOver_still rfl .nil (fun _ _ _ => List.not_mem_nil) fun _ => rfl
  | @aborted kind d globalContext c f w _ hv hd _ =>
      obtain rfl := hd
      have hpart := (e.workshop.attempted_initial (e.drafted kind d globalContext).starts).sublist
      refine hc.handsOver_still rfl ?_ (fun id n hn hid => ?_) fun hno => absurd rfl (hno _ _ _)
      · exact (hpart.map _).nodup (e.well_drafted kind globalContext hv).nodup_starts
      · obtain ⟨a, ha, rfl⟩ := List.mem_map.mp hid
        exact (fresh_of_mem_starts (hpart.subset ha)).2 (h.among _ n hn)
  | @founded kind d globalContext c _ _ hv hd hconflict _ =>
      obtain rfl := hd
      exact hc.handsOver_founded (e.well_drafted kind globalContext hv) hconflict rfl rfl
  | idle _ => exact hc.handsOver_still rfl .nil (fun _ _ _ => List.not_mem_nil) fun _ => rfl
  | refused hb _ hw =>
      refine hc.handsOver_still ?_ .nil (fun _ _ _ => List.not_mem_nil) fun _ => rfl
      rw [hw.workflows, asked, hb.rest.1]
  | @carried _ note n m x _ _ calls hb ht hx hid hw =>
      have hl := (h.gating.announced _ (hop.mem_queue hb)).not_locked ht.taken
      have hs : e'.workflows = { e.workflows.settle note m x with calls := calls } := by
        rw [hw.workflows, settled, hb.rest.1]
      exact hc.handsOver_carried h.gating.steady.sound ht hl hx hid hs
  | outside _ => exact hc.handsOver_still rfl .nil (fun _ _ _ => List.not_mem_nil) fun _ => rfl

/-- The nodes there are then and those that are activated are of instances that were made, and a
node that was not there before is of none that was made before. -/
structure Renumbered (e : Engine) (as : List Activation) (e' : Engine) : Prop where
  le : e.instancesMade ≤ e'.instancesMade
  nodes : ∀ id n', e'.workflows.nodes.get? id = some n' →
    (∃ n, e.workflows.nodes.get? id = some n) ∨
      id.Among e'.instancesMade ∧ ¬ id.Among e.instancesMade
  activated : ∀ a ∈ as, (∃ n, e.workflows.nodes.get? a.nodeId = some n) ∨
    a.nodeId.Among e'.instancesMade

theorem Renumbered.still (hn : e'.workflows.nodes = e.workflows.nodes)
    (hle : e.instancesMade ≤ e'.instancesMade)
    (ha : ∀ a ∈ as, a.nodeId.Among e'.instancesMade) : Renumbered e as e' :=
  ⟨hle, fun _ n' hn' => .inl ⟨n', hn ▸ hn'⟩, fun a h => .inr (ha a h)⟩

theorem Course.renumbered (hc : Course e op as e') (h : e.Steady) : Renumbered e as e' := by
  cases hc with
  | invalid _ => exact .still rfl le_rfl fun _ ha => nomatch ha
  | conflicting _ _ => exact .still rfl (Nat.le_succ _) fun _ ha => nomatch ha
  | @aborted kind d globalContext c _ _ _ _ hd _ =>
      obtain rfl := hd
      refine .still rfl (Nat.le_succ _) fun a ha => ?_
      exact (fresh_of_mem_starts ((e.workshop.attempted_initial _).subset ha)).1
  | @founded kind d globalContext c _ _ hv hd hconflict _ =>
      obtain rfl := hd
      have hdistinct := (e.well_drafted kind globalContext hv).distinct
      refine ⟨Nat.le_succ _, fun id n' hn' => ?_, fun a ha => .inr (fresh_of_mem_starts ha).1⟩
      rcases (get?_commit_eq_some (s := e.workflows.called) hconflict hdistinct).mp hn' with
        ⟨hmem, rfl⟩ | hold
      · exact .inr (fresh_of_drafted hmem)
      · exact .inl ⟨n', hold⟩
  | idle _ => exact .still rfl le_rfl fun _ ha => nomatch ha
  | refused hb _ hw =>
      refine .still ?_ (hw.made.trans hb.made).ge fun _ ha => nomatch ha
      rw [hw.workflows, asked, hb.rest.1]
  | @carried _ note n m x _ _ calls hb ht hx hid hw =>
      have hfit := ht.fit h.sound
      refine ⟨(hw.made.trans hb.made).ge, fun id n' hn' => .inl ?_, fun a ha => .inl ?_⟩
      · have hlook := hw.get?_settled hb.rest.1 h.sound ht hx hid id
        rcases Lookup.of_advance (hlook.symm.trans hn') with ⟨rfl, -⟩ | ⟨k, -, hk, -⟩
        · exact ⟨n, ht.found⟩
        · exact ⟨k, hk⟩
      · obtain ⟨k, hk, rfl⟩ := List.mem_map.mp ha
        exact ⟨k, (h.sound.of_mem_unlockedBy ht.found ht.onward hfit hk).2.1⟩
  | outside _ => exact .still rfl le_rfl fun _ ha => nomatch ha

end Courses

/-! ### A whole run -/

/-- A run of operations, with all the activations that the workflow layer makes in it. -/
inductive Hands (e : Engine) : List Op → List Activation → Engine → Prop
  | nil : Hands e [] [] e
  | snoc {ops : List Op} {log as : List Activation} {e₁ : Engine} {op : Op} (h : Hands e ops log e₁)
      (ha : HandsOver e₁ op as (op.perform e₁).2) :
      Hands e (ops ++ [op]) (log ++ as) (op.perform e₁).2

/-- The activations that were made are of nodes of the instances made so far, and of each node there
is one if it is not locked, and none if it is. -/
structure Logged (log : List Activation) (e : Engine) : Prop extends Numbered e where
  made : ∀ a ∈ log, a.nodeId.Among e.instancesMade
  counted : ∀ id n, e.workflows.nodes.get? id = some n →
    (log.map (·.nodeId)).count id = if n.state = .locked then 0 else 1

theorem logged_ofCapacity (containers notifications : Nat) :
    Logged [] (ofCapacity containers notifications) where
  gating := gating_ofCapacity containers notifications
  among _ _ h := nomatch h
  made _ h := nomatch h
  counted _ _ h := nomatch h

/-- The activations of one operation are added to those before it. -/
theorem Logged.perform {log as : List Activation} {e : Engine} {op : Op} (h : Logged log e)
    (hop : op.QueuedOnly) (ha : HandsOver e op as (op.perform e).2) :
    Logged (log ++ as) (op.perform e).2 := by
  have heffect := effect_perform h.gating.steady op
  have hr := ha.course.renumbered h.gating.steady
  refine ⟨⟨h.gating.effect hop heffect, fun id n' hn' => ?_⟩, fun a hmem => ?_, fun id n' hn' => ?_⟩
  · rcases hr.nodes id n' hn' with ⟨n, hn⟩ | ⟨hnew, -⟩
    · exact (h.among id n hn).mono hr.le
    · exact hnew
  · rcases List.mem_append.mp hmem with hlog | has
    · exact (h.made a hlog).mono hr.le
    · rcases hr.activated a has with ⟨n, hn⟩ | hnew
      · exact (h.among _ n hn).mono hr.le
      · exact hnew
  · rw [List.map_append, List.count_append, ha.count hn']
    rcases hr.nodes id n' hn' with ⟨n, hn⟩ | ⟨-, hnew⟩
    · -- a node that is not locked stays so
      obtain ⟨k, hk, ho⟩ := heffect.onward id n hn
      obtain rfl := Option.some.inj (hn'.symm.trans hk)
      rw [h.counted id n hn, hn]
      by_cases hl : n.state = .locked
      · by_cases hl' : n'.state = .locked
        · simp [hl, hl']
        · simp [hl, hl']
      · simp [hl, ho.not_locked hl]
    · -- no activation before was of a node that is new
      have hno : id ∉ log.map (·.nodeId) := by
        intro hid
        obtain ⟨a, ha, rfl⟩ := List.mem_map.mp hid
        exact hnew (h.made a ha)
      have hnone : ∀ n, e.workflows.nodes.get? id ≠ some n := fun n hn => hnew (h.among id n hn)
      rw [List.count_eq_zero.mpr hno]
      by_cases hl' : n'.state = .locked
      · simp [hl']
      · simp [hl', hnone]

theorem after_append (ops : List Op) (op : Op) (e : Engine) :
    after (ops ++ [op]) e = (op.perform (after ops e)).2 := by
  rw [after, List.foldl_append]
  rfl

theorem Hands.logged {e e' : Engine} {ops : List Op} {log : List Activation}
    (h : Hands e ops log e') (he : Logged [] e) (hops : ∀ op ∈ ops, op.QueuedOnly) :
    Logged log e' := by
  induction h with
  | nil => exact he
  | snoc _ ha ih =>
      obtain ⟨hbefore, hop⟩ := List.forall_mem_append.mp hops
      exact (ih hbefore).perform (List.forall_mem_singleton.mp hop) ha

/-- Operations that bring no notification but the queued ones are a run. -/
theorem exists_hands {e : Engine} (he : Logged [] e) (ops : List Op)
    (hops : ∀ op ∈ ops, op.QueuedOnly) : ∃ log, Hands e ops log (after ops e) := by
  induction ops using List.reverseRecOn with
  | nil => exact ⟨[], .nil⟩
  | append_singleton ops op ih =>
      obtain ⟨hbefore, hop⟩ := List.forall_mem_append.mp hops
      obtain ⟨log, hlog⟩ := ih hbefore
      have hl := hlog.logged he hbefore
      obtain ⟨as, hc⟩ := exists_course hl.gating.steady op
      rw [after_append]
      exact ⟨log ++ as, hlog.snoc (hc.handsOver hl.toNumbered (List.forall_mem_singleton.mp hop))⟩

/-- **Handed over once.** Whatever operations are performed, with the notifications that are queued,
the activations that the workflow layer makes are those of `HandsOver`, one operation after the
other: the starting nodes of an instance before it is committed, and the dependents that a
notification unlocks when all of them are stored as ready, however many of the activations fail.
Over the whole run a node has been activated once if it is not locked, and never if it is. -/
theorem handed_over_once (containers notifications : Nat) (ops : List Op)
    (hops : ∀ op ∈ ops, op.QueuedOnly) :
    (∃ log, Hands (ofCapacity containers notifications) ops log
      (after ops (ofCapacity containers notifications))) ∧
    ∀ log, Hands (ofCapacity containers notifications) ops log
        (after ops (ofCapacity containers notifications)) →
      ∀ id n, (after ops (ofCapacity containers notifications)).workflows.nodes.get? id = some n →
        (log.map (·.nodeId)).count id = if n.state = .locked then 0 else 1 := by
  have he := logged_ofCapacity containers notifications
  exact ⟨exists_hands he ops hops, fun log hlog => (hlog.logged he hops).counted⟩

/-- When a permit is made, its form is activated and the wait for its payment is not. -/
theorem handed_over_once_opened :
    ∃ log, Hands (ofCapacity 1 1) [.create .consignment permit {}, .deliver] log opened ∧
      (log.map (·.nodeId)).count ⟨"$1-apply"⟩ = 1 ∧ (log.map (·.nodeId)).count ⟨"$1-pay"⟩ = 0 := by
  obtain ⟨⟨log, hlog⟩, hcount⟩ := handed_over_once 1 1 [.create .consignment permit {}, .deliver]
    (by simp [Op.QueuedOnly])
  have happly : (opened.workflows.nodes.get? ⟨"$1-apply"⟩).map (·.state) = some .inProgress := by
    cbv
  have hpay : (opened.workflows.nodes.get? ⟨"$1-pay"⟩).map (·.state) = some .locked := by cbv
  obtain ⟨n, hn, hopen⟩ := Option.map_eq_some_iff.mp happly
  obtain ⟨k, hk, hlocked⟩ := Option.map_eq_some_iff.mp hpay
  refine ⟨log, hlog, ?_, ?_⟩
  · rw [hcount log hlog _ n hn, hopen]
    rfl
  · rw [hcount log hlog _ k hk, hlocked]
    rfl

end Engine

end Clearance
