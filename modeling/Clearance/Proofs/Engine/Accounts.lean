import Clearance.Proofs.Engine.Founding
import Clearance.Proofs.Engine.Registration
import Clearance.Proofs.Task.Accounts

/-!
# Clearance — Proofs — Engine — The accounts of a run

The counters of an engine against what was asked of its tasks, and against its nodes.

* `Engine.Op.requests`: what an operation asks of the task layer.
* `Engine.Tended`: a run of operations, with everything that was asked of the task layer in it.
* `Engine.Tended.audited`: what becomes of the counters in a run.
* `Engine.Registered`: the registrations of a run are those of the nodes that it unlocked.
* `Engine.counters_reconcile`: what that comes to for every run.
-/

namespace Clearance

/-- A node that has dependencies and is not locked any longer. -/
def WorkflowNode.released (n : WorkflowNode) : Bool :=
  !n.dependencies.isEmpty && n.state != .locked

theorem WorkflowNode.released_iff {n : WorkflowNode} :
    n.released = true ↔ n.dependencies ≠ [] ∧ n.state ≠ .locked := by
  simp [released]

namespace Engine

open WorkflowStore Workshop

variable {e e₁ e₂ e' : Engine} {op : Op} {as : List Activation} {vs log : List Visit}
  {note : Notification} {id : NodeId}

/-! ### What an operation asks for -/

/-- Of the activations that the workflow layer makes in an operation, those of nodes that it
unlocks. -/
def Op.unlocks (as : List Activation) : Op → List Activation
  | .deliver | .notify _ => as
  | _ => []

/-- What an operation in which the workflow layer makes these activations asks of the task layer. -/
def Op.requests (as : List Activation) : Op → List Request
  | .create _ _ _ => as.map fun a => .call (.init {} a)
  | .init ctx a => [.call (.init ctx a)]
  | .execute ctx id q => [.call (.execute ctx id q)]
  | .render ctx id => [.call (.render ctx id)]
  | .snapshot id => [.call (.snapshot id)]
  | .deliver | .notify _ => as.map .registration
  | _ => []

/-- The workshop when what is around the tasks has changed, or a notification is taken out of the
mailbox. -/
def Op.finds (e : Engine) : Op → Workshop
  | .deliver => e.receive.2.workshop
  | op@(.outage _ _) | op@(.agencies _ _) | op@.close | op@.discard => (op.perform e).2.workshop
  | _ => e.workshop

/-- The workshop before anything is asked of it, when the nodes that are unlocked are counted. -/
def Op.admits (e : Engine) (as : List Activation) (op : Op) : Workshop :=
  { op.finds e with
    metrics := (op.finds e).metrics.add (op.unlocks as).length .nodeUnlocked }

/-- A run of operations, with everything that is asked of the task layer in it. -/
inductive Tended (e : Engine) : List Op → List Visit → Engine → Prop
  | nil : Tended e [] [] e
  | snoc {ops : List Op} {log vs : List Visit} {as : List Activation} {e₁ : Engine} {op : Op}
      (h : Tended e ops log e₁) (hc : Course e₁ op as (op.perform e₁).2)
      (hq : vs.map (·.request) = op.requests as)
      (hv : Visits (op.admits e₁ as) vs (op.perform e₁).2.workshop) :
      Tended e (ops ++ [op]) (log ++ vs) (op.perform e₁).2

/-! ### Every operation is tended -/

theorem Op.Brings.note_eq {note' : Notification} (h : op.Brings note e e₁)
    (h' : op.Brings note' e e₂) : note' = note := by
  cases op with
  | deliver =>
      have hq := (Took.queue h).symm.trans (Took.queue h')
      exact (List.cons.inj hq).1.symm
  | notify k => exact h'.1.symm.trans h.1
  | _ => exact h.elim

theorem Op.Brings.not_outside (h : op.Brings note e e₁) : ¬ op.Outside := by
  cases op with
  | deliver => exact id
  | notify _ => exact id
  | _ => exact h.elim

theorem Takes.at_note {n m : WorkflowNode} (h : e.Takes note n m) :
    e.workflows.nodes.get? note.nodeId = some n := by
  rw [h.node]
  exact h.found

/-- A notification is taken by one node, which becomes one other by it. -/
theorem Takes.unique {n n' m m' : WorkflowNode} (h : e.Takes note n m) (h' : e.Takes note n' m') :
    n' = n ∧ m' = m := by
  obtain rfl := Option.some.inj (h.at_note.symm.trans h'.at_note)
  exact ⟨rfl, Option.some.inj (h'.taken.symm.trans h.taken)⟩

theorem Takes.not_refused {n m : WorkflowNode} (h : e.Takes note n m) {f : Failure}
    (hr : note.Refused e.workflows.nodes.get? f) : False :=
  nomatch h.taken.symm.trans (WorkflowNode.take?_of_refused hr h.at_note)

/-- The activations of a course in which a notification is handled are the registrations that are
made then, once the nodes are counted. -/
theorem Course.of_handled {r : Except Failure Progress} (hc : Course e op as e')
    (hop : op.Brings note e e₁) (h : Handled e₁ note r e₂) :
    e₂.workshop = as.foldl Workshop.register
      { e₁.workshop with metrics := e₁.workshop.metrics.add as.length .nodeUnlocked } := by
  obtain ⟨hsame, -, -⟩ := hop.rest
  cases hc with
  | invalid _ => exact hop.elim
  | conflicting _ _ => exact hop.elim
  | aborted _ _ _ => exact hop.elim
  | founded _ _ _ _ => exact hop.elim
  | idle hq => exact nomatch hq.symm.trans (Took.queue hop)
  | outside hout => exact absurd hout hop.not_outside
  | refused hb hr _ =>
      obtain rfl := hop.note_eq hb
      cases h with
      | refused _ =>
          rw [List.foldl_nil, List.length_nil, Metrics.add_zero]
          rfl
      | carried ht _ _ => exact (ht.not_refused (hsame ▸ hr)).elim
  | carried hb ht hx _ _ =>
      obtain rfl := hop.note_eq hb
      have ht₁ := ht.of_nodes (f := e₁) (by rw [hsame])
      cases h with
      | refused hr => exact (ht₁.not_refused hr).elim
      | carried ht' hx' _ =>
          obtain ⟨rfl, rfl⟩ := ht₁.unique ht'
          obtain rfl := Option.some.inj ((hsame ▸ hx').symm.trans hx)
          rw [← hsame, registrations, List.length_map]
          rfl

/-- The creation of an instance asks for its starting tasks. -/
theorem Course.visits_create {kind : InstanceKind} {d : WorkflowDefinition} {globalContext : Context}
    (hc : Course e (.create kind d globalContext) as e') :
    ∃ vs : List Visit, vs.map (·.request) = as.map (fun a => .call (.init {} a)) ∧
      Visits e.workshop vs e'.workshop := by
  cases hc with
  | invalid _ => exact ⟨[], rfl, .nil⟩
  | conflicting _ _ => exact ⟨[], rfl, .nil⟩
  | @aborted _ _ _ c _ _ _ _ _ hi =>
      obtain ⟨vs, hvs, hall⟩ := Visits.initAll (.nil (w := e.workshop)) c.starts
      rw [hi] at hall
      exact ⟨vs, hvs, hall⟩
  | @founded _ _ _ c _ _ _ _ _ hi =>
      obtain ⟨vs, hvs, hall⟩ := Visits.initAll (.nil (w := e.workshop)) c.starts
      rw [hi] at hall
      rw [attempted_of_ok hi] at hvs
      exact ⟨vs, hvs, hall⟩
  | refused hb _ _ => exact hb.elim
  | carried hb _ _ _ _ => exact hb.elim
  | outside hout => exact hout.elim

/-- Nothing is asked for when the mailbox is empty. -/
theorem Course.eq_nil_of_idle (hc : Course e .deliver as e')
    (hq : e.workshop.mailbox.queue = []) : as = [] := by
  cases hc with
  | idle _ => rfl
  | refused _ _ _ => rfl
  | carried hb _ _ _ _ => exact nomatch hq.symm.trans (Took.queue hb)
  | outside hout => exact hout.elim

/-- **Tending.** Everything an operation asks of the task layer leads from the workshop it is let into to
the one it leaves. -/
theorem Course.visits (hc : Course e op as (op.perform e).2) (h : e.Steady) :
    ∃ vs : List Visit, vs.map (·.request) = op.requests as ∧
      Visits (op.admits e as) vs (op.perform e).2.workshop := by
  have hone : ∀ c : Call, ∃ vs : List Visit, vs.map (·.request) = [.call c] ∧
      Visits e.workshop vs (c.perform e.workshop).2 := fun c =>
    ⟨[⟨e.workshop, .call c⟩], rfl, .visit .nil (.call c)⟩
  have hnone : ∃ vs : List Visit, vs.map (·.request) = [] ∧
      Visits (op.perform e).2.workshop vs (op.perform e).2.workshop := ⟨[], rfl, .nil⟩
  cases op with
  | create _ _ _ => exact hc.visits_create
  | init ctx a => exact hone (.init ctx a)
  | execute ctx id q => exact hone (.execute ctx id q)
  | render ctx id => exact hone (.render ctx id)
  | snapshot id => exact hone (.snapshot id)
  | deliver =>
      rcases receive_eq e with ⟨hq, he⟩ | ⟨note, e₁, ht, he⟩
      · obtain rfl := hc.eq_nil_of_idle hq
        refine ⟨[], rfl, ?_⟩
        rw [Op.admits, Op.finds, Op.perform, he]
        exact .nil
      · have hop : Op.deliver.Brings note e e₁ := ht
        have h₁ := h.brings hop
        have hperform : (Op.deliver.perform e).2 = ((process note).go e₁).2 := by
          rw [Op.perform, he]
        have hadmits : Op.deliver.admits e as = { e₁.workshop with
            metrics := e₁.workshop.metrics.add as.length .nodeUnlocked } := by
          rw [Op.admits, Op.finds, he]
          rfl
        obtain ⟨vs, hvs, hall⟩ := Visits.registers (.nil (w := Op.deliver.admits e as)) as
        refine ⟨vs, hvs, ?_⟩
        rw [hadmits, ← hc.of_handled hop (handle_handled h₁.sound h₁.unfaulted note)] at hall
        rw [hadmits, hperform, process_go]
        refine .count hall ?_
        cases ((handle note).go e₁).1 with
        | ok _ => exact .inl rfl
        | error _ => exact .inr rfl
  | notify note =>
      have hop : (Op.notify note).Brings note e e := ⟨rfl, rfl⟩
      obtain ⟨vs, hvs, hall⟩ := Visits.registers (.nil (w := (Op.notify note).admits e as)) as
      refine ⟨vs, hvs, ?_⟩
      have hend : ((Op.notify note).perform e).2.workshop = _ :=
        hc.of_handled hop (handle_handled h.sound h.unfaulted note)
      rw [hend]
      exact hall
  | outage _ _ => exact hnone
  | agencies _ _ => exact hnone
  | close => exact hnone
  | discard => exact hnone

/-- Every run is tended. -/
theorem exists_tended (h : e.Steady) (ops : List Op) : ∃ log, Tended e ops log (after ops e) := by
  induction ops using List.reverseRecOn with
  | nil => exact ⟨[], .nil⟩
  | append_singleton ops op ih =>
      obtain ⟨log, hlog⟩ := ih
      obtain ⟨as, hc⟩ := exists_course (h.after ops) op
      obtain ⟨vs, hq, hv⟩ := hc.visits (h.after ops)
      rw [after_append]
      exact ⟨log ++ vs, hlog.snoc hc hq hv⟩

/-! ### The counters of a run -/

/-- The nodes that are registered, one request after the other. -/
def registered (log : List Visit) : List NodeId := log.filterMap (·.request.registered)

theorem registered_append (log vs : List Visit) :
    registered (log ++ vs) = registered log ++ registered vs :=
  List.filterMap_append

theorem registered_of_requests (hq : vs.map (·.request) = op.requests as) :
    registered vs = (op.unlocks as).map (·.nodeId) := by
  have hmap : registered vs = (vs.map (·.request)).filterMap Request.registered := by
    rw [registered, List.filterMap_map]
    rfl
  rw [hmap, hq]
  cases op with
  | create _ _ _ => simp [Op.requests, Op.unlocks, Request.registered]
  | deliver => simp [Op.requests, Op.unlocks, Request.registered, Function.comp_def]
  | notify _ => simp [Op.requests, Op.unlocks, Request.registered, Function.comp_def]
  | _ => rfl

theorem Op.around_finds (e : Engine) (op : Op) :
    Around e.workshop (op.finds e) ∧
      ∀ n ∈ (op.finds e).mailbox.queue, n ∈ e.workshop.mailbox.queue := by
  cases op with
  | deliver =>
      refine ⟨⟨rfl, rfl, rfl, rfl⟩, fun n hn => ?_⟩
      rcases receive_eq e with ⟨-, he⟩ | ⟨note, e₁, ht, he⟩
      · rwa [finds, he] at hn
      · rw [finds, he] at hn
        rw [ht.queue]
        exact List.mem_cons_of_mem _ hn
  | discard => exact ⟨⟨rfl, rfl, rfl, rfl⟩, fun _ hn => nomatch hn⟩
  | _ => exact ⟨⟨rfl, rfl, rfl, rfl⟩, fun _ hn => hn⟩

/-- Before anything is asked of the workshop, only the unlocked nodes are counted. -/
theorem Op.entering (hw : e.workshop.Coherent) (ht : e.workshop.cache.Tidy) (as : List Activation)
    (op : Op) :
    (op.admits e as).Coherent ∧ Accounts 0 0 e.workshop (op.admits e as) ∧
      (op.admits e as).metrics.count .nodeUnlocked =
        e.workshop.metrics.count .nodeUnlocked + (op.unlocks as).length ∧
      (op.admits e as).metrics.count .unlockRegistrationFailed =
        e.workshop.metrics.count .unlockRegistrationFailed := by
  obtain ⟨ha, hq⟩ := op.around_finds e
  have hcount : ∀ k, (op.admits e as).metrics.count k =
      e.workshop.metrics.count k + if k = .nodeUnlocked then (op.unlocks as).length else 0 := by
    intro k
    rw [admits, ha.metrics, Metrics.count_add]
  refine ⟨(ha.coherent hw hq).of_eq rfl rfl (fun _ _ h => h) fun _ h => h, ?_, hcount _, hcount _⟩
  refine .of_eq (ha.cache ▸ ht) (congrArg (·.entries.capacity) ha.cache)
    (congrArg ContainerCache.size ha.cache) fun k hk => ?_
  rw [hcount, if_neg (by rintro rfl; cases hk), Nat.add_zero]

/-- **A run is accounted for.** -/
theorem Tended.audited {ops : List Op} (h : Tended e ops log e') (he : e.Steady)
    (ht : e.workshop.cache.Tidy) :
    e'.Steady ∧ Accounts (log.countP (·.seeks)) (log.countP (·.builds)) e.workshop e'.workshop ∧
      e'.workshop.metrics.count .nodeUnlocked =
        e.workshop.metrics.count .nodeUnlocked + (registered log).length ∧
      e'.workshop.metrics.count .unlockRegistrationFailed =
        e.workshop.metrics.count .unlockRegistrationFailed + log.countP (·.fails) := by
  induction h with
  | nil => exact ⟨he, .refl ht, rfl, rfl⟩
  | @snoc ops log vs as e₁ op _ hc hq hv ih =>
      obtain ⟨h₁, hacc, hunlocked, hfailed⟩ := ih
      obtain ⟨hw, henter, hcount, hsame⟩ := Op.entering h₁.coherent hacc.tidy as op
      have haudit := hv.audited hw henter.tidy
      refine ⟨h₁.effect (effect_perform h₁ op), ?_, ?_, ?_⟩
      · have hall := (hacc.trans henter).trans haudit.toAccounts
        rwa [List.countP_append, List.countP_append]
      · rw [haudit.unlocked, hcount, hunlocked, registered_append, registered_of_requests hq,
          List.length_append, List.length_map, Nat.add_assoc]
      · rw [haudit.failed, hsame, hfailed, List.countP_append, Nat.add_assoc]

/-! ### The nodes that a run unlocks -/

/-- The node had to wait for others, and does not any longer. -/
def Unlocked (e : Engine) (id : NodeId) : Prop :=
  ∃ n, e.workflows.nodes.get? id = some n ∧ n.dependencies ≠ [] ∧ n.state ≠ .locked

/-- These are the nodes that an operation unlocks, each of them once. -/
structure Opens (e : Engine) (ids : List NodeId) (e' : Engine) : Prop where
  distinct : ids.Nodup
  locked : ∀ id ∈ ids, ¬ e.Unlocked id
  unlocked : ∀ id, e'.Unlocked id ↔ e.Unlocked id ∨ id ∈ ids

theorem Opens.still (h : ∀ id, e'.workflows.nodes.get? id = e.workflows.nodes.get? id) :
    Opens e [] e' :=
  ⟨.nil, nofun, fun id => by rw [Unlocked, h, Unlocked]; simp⟩

/-- An instance that is committed has all the nodes locked that have to wait. -/
theorem Founded.opens {c : Created} (h : Founded c e e') : Opens e [] e' := by
  refine ⟨.nil, nofun, fun id => ?_⟩
  constructor
  · rintro ⟨n, hn, hdeps, hl⟩
    rcases h.get?_eq_some.mp hn with ⟨hmem, -⟩ | hold
    · exact absurd (h.well.dependencies_of_ready hmem (h.well.ready hmem hl)) hdeps
    · exact .inl ⟨n, hold, hdeps, hl⟩
  · rintro (⟨n, hn, hdeps, hl⟩ | hno)
    · exact ⟨n, h.get?_eq_some.mpr (.inr hn), hdeps, hl⟩
    · cases hno

/-- A node without dependencies is never locked. -/
theorem Gating.dependencies (h : e.Gating) {n : WorkflowNode}
    (hn : e.workflows.nodes.get? id = some n) (hl : n.state = .locked) : n.dependencies ≠ [] := by
  intro hdeps
  have hsat := (h.gated id n hn).mp hl
  rw [WorkflowNode.satisfied_of_not_met (by simp [hdeps]), hdeps] at hsat
  cases hsat

/-- Where no node is new, those are unlocked that are handed over. -/
theorem HandsOver.opens (h : HandsOver e op as e') (hg : e.Gating) (ho : AllOnward e e')
    (hold : ∀ id n', e'.workflows.nodes.get? id = some n' →
      ∃ n, e.workflows.nodes.get? id = some n)
    (has : ∀ a ∈ as, ∃ n, e.workflows.nodes.get? a.nodeId = some n) :
    Opens e (as.map (·.nodeId)) e' := by
  -- a node that is handed over was locked and is not any longer
  have hturn : ∀ id ∈ as.map (·.nodeId), ∃ n n', e.workflows.nodes.get? id = some n ∧
      e'.workflows.nodes.get? id = some n' ∧ n.Onward n' ∧ n.state = .locked ∧
      n'.state ≠ .locked := by
    intro id hid
    obtain ⟨a, ha, rfl⟩ := List.mem_map.mp hid
    obtain ⟨n, hn⟩ := has a ha
    obtain ⟨n', hn', hon⟩ := ho _ n hn
    obtain ⟨hl', hl⟩ := (h.unlocked _ n' hn').mp hid
    exact ⟨n, n', hn, hn', hon, hl n hn, hl'⟩
  refine ⟨h.distinct, ?_, fun id => ⟨?_, ?_⟩⟩
  · rintro id hid ⟨n, hn, -, hl⟩
    obtain ⟨k, -, hk, -, -, hlocked, -⟩ := hturn id hid
    obtain rfl := Option.some.inj (hn.symm.trans hk)
    exact hl hlocked
  · rintro ⟨n', hn', hdeps, hl'⟩
    obtain ⟨n, hn⟩ := hold id n' hn'
    obtain ⟨k, hk, hon⟩ := ho id n hn
    obtain rfl := Option.some.inj (hn'.symm.trans hk)
    by_cases hl : n.state = .locked
    · refine .inr ((h.unlocked id n' hn').mpr ⟨hl', fun x hx => ?_⟩)
      exact Option.some.inj (hn.symm.trans hx) ▸ hl
    · exact .inl ⟨n, hn, hon.kin.dependencies_eq ▸ hdeps, hl⟩
  · rintro (⟨n, hn, hdeps, hl⟩ | hid)
    · obtain ⟨n', hn', hon⟩ := ho id n hn
      exact ⟨n', hn', hon.kin.dependencies_eq ▸ hdeps, hon.not_locked hl⟩
    · obtain ⟨n, n', hn, hn', hon, hl, hl'⟩ := hturn id hid
      exact ⟨n', hn', hon.kin.dependencies_eq ▸ hg.dependencies hn hl, hl'⟩

/-- **Unlocking.** What an operation registers are the nodes that it unlocks. -/
theorem Course.opens (hc : Course e op as e') (h : e.Numbered) (hop : op.QueuedOnly)
    (he : Effect e op e') : Opens e ((op.unlocks as).map (·.nodeId)) e' := by
  have hs := h.gating.steady.sound
  have hcreate : ∀ {kind d globalContext} {e' : Engine},
      Effect e (.create kind d globalContext) e' → Opens e [] e' := by
    intro kind d globalContext e' he
    cases he with
    | created k _ => exact k.opens
    | uncreated hsame _ => exact .still hsame.nodes
    | served _ _ => exact .still fun _ => rfl
    | advanced hb _ _ => exact hb.elim
    | refused hb _ _ _ => exact hb.elim
    | outside _ _ => exact .still fun _ => rfl
  cases id hc with
  | invalid _ => exact hcreate he
  | conflicting _ _ => exact hcreate he
  | aborted _ _ _ => exact hcreate he
  | founded _ _ _ _ => exact hcreate he
  | idle _ => exact .still fun _ => rfl
  | outside hout =>
      have hnone : op.unlocks [] = [] := by cases op <;> rfl
      rw [hnone]
      exact .still fun _ => rfl
  | refused hb _ hw =>
      have hnone : op.unlocks [] = [] := by cases op <;> rfl
      rw [hnone]
      refine .still fun id => ?_
      rw [hw.workflows, asked, hb.rest.1]
  | @carried _ note n m x _ _ calls hb ht hx hid hw =>
      have hall : op.unlocks (e.workflows.registrations note m x) =
          e.workflows.registrations note m x := by
        cases op with
        | deliver => rfl
        | notify _ => rfl
        | _ => exact hb.elim
      rw [hall]
      refine (hc.handsOver h hop).opens h.gating he.onward (fun id n' hn' => ?_) fun a ha => ?_
      · have hlook := hw.get?_settled hb.rest.1 hs ht hx hid id
        rcases Lookup.of_advance (hlook.symm.trans hn') with ⟨rfl, -⟩ | ⟨k, -, hk, -⟩
        · exact ⟨n, ht.found⟩
        · exact ⟨k, hk⟩
      · obtain ⟨k, hk, rfl⟩ := List.mem_map.mp ha
        exact ⟨k, (hs.of_mem_unlockedBy ht.found ht.onward (ht.fit hs) hk).2.1⟩

/-- The registrations of a run are those of the nodes that it unlocked, one of each. -/
structure Registered (log : List Visit) (e : Engine) : Prop where
  distinct : (registered log).Nodup
  unlocked : ∀ id, id ∈ registered log ↔ e.Unlocked id

theorem Registered.opens {ids : List NodeId} (h : Registered log e) (ho : Opens e ids e')
    (hids : registered vs = ids) : Registered (log ++ vs) e' := by
  rw [← hids] at ho
  refine ⟨?_, fun id => ?_⟩
  · rw [registered_append, List.nodup_append']
    exact ⟨h.distinct, ho.distinct, fun id hlog hvs => ho.locked id hvs ((h.unlocked id).mp hlog)⟩
  · rw [registered_append, List.mem_append, h.unlocked, ho.unlocked]

theorem Tended.registered {ops : List Op} (h : Tended e ops log e') (he : Logged [] e)
    (hnew : ∀ id, ¬ e.Unlocked id) (hops : ∀ op ∈ ops, op.QueuedOnly) : Registered log e' := by
  have hrun : (∃ acts, Logged acts e') ∧ Registered log e' := by
    induction h with
    | nil => exact ⟨⟨[], he⟩, .nil, fun id => iff_of_false List.not_mem_nil (hnew id)⟩
    | @snoc ops log vs as e₁ op _ hc hq _ ih =>
        obtain ⟨hbefore, hop⟩ := List.forall_mem_append.mp hops
        obtain ⟨⟨acts, hl⟩, hr⟩ := ih hbefore
        have hop := List.forall_mem_singleton.mp hop
        have heffect := effect_perform hl.gating.steady op
        refine ⟨⟨_, hl.perform hop (hc.handsOver hl.toNumbered hop)⟩, ?_⟩
        exact hr.opens (hc.opens hl.toNumbered hop heffect) (registered_of_requests hq)
  exact hrun.2

/-! ### How many nodes that is -/

/-- The nodes with this property, among those there are. -/
def nodesWith (e : Engine) (p : WorkflowNode → Bool) : List WorkflowNode :=
  e.workflows.nodes.values.filter p

/-- The nodes with a property are as many as their ids. -/
theorem Steady.length_nodesWith (h : e.Steady) {p : WorkflowNode → Bool} {ids : List NodeId}
    (hd : ids.Nodup)
    (hids : ∀ id, id ∈ ids ↔ ∃ n, e.workflows.nodes.get? id = some n ∧ p n = true) :
    (e.nodesWith p).length = ids.length := by
  have hkeyed := h.sound.keyed
  have hvalues : e.workflows.nodes.values.map (·.id) = e.workflows.nodes.keys := by
    rw [Table.values, Table.keys, List.map_map]
    exact List.map_congr_left fun x hx => hkeyed x.1 x.2 (Table.get?_of_mem hx)
  have hnodup : ((e.nodesWith p).map (·.id)).Nodup := by
    refine List.Nodup.sublist (List.filter_sublist.map _) ?_
    rw [hvalues]
    exact e.workflows.nodes.keys_nodup
  have hperm : ((e.nodesWith p).map (·.id)).Perm ids := by
    refine (List.perm_ext_iff_of_nodup hnodup hd).mpr fun id => ?_
    rw [hids, List.mem_map]
    constructor
    · rintro ⟨n, hn, rfl⟩
      obtain ⟨hmem, hp⟩ := List.mem_filter.mp hn
      obtain ⟨k, hk⟩ := Table.mem_values.mp hmem
      obtain rfl := hkeyed k n hk
      exact ⟨n, hk, hp⟩
    · rintro ⟨n, hn, hp⟩
      exact ⟨n, List.mem_filter.mpr ⟨Table.mem_values.mpr ⟨id, hn⟩, hp⟩, hkeyed id n hn⟩
  rw [← hperm.length_eq, List.length_map]

/-- Whether a registration of the node failed. -/
def failedFor (log : List Visit) (id : NodeId) : Bool :=
  log.any fun v => v.request.registered = some id && v.fails

theorem failedFor_iff : failedFor log id = true ↔
    id ∈ registered (log.filter (·.fails)) := by
  simp only [failedFor, registered, List.any_eq_true, List.mem_filterMap, List.mem_filter,
    Bool.and_eq_true, decide_eq_true_eq]
  constructor
  · rintro ⟨v, hv, hid, hf⟩
    exact ⟨v, ⟨hv, hf⟩, hid⟩
  · rintro ⟨v, ⟨hv, hf⟩, hid⟩
    exact ⟨v, hv, hid, hf⟩

/-- Only registrations fail. -/
theorem length_registered_fails (log : List Visit) :
    (registered (log.filter (·.fails))).length = log.countP (·.fails) := by
  rw [registered, List.length_filterMap_eq_countP, List.countP_filter]
  refine List.countP_congr fun v _ => ?_
  obtain ⟨w, q⟩ := v
  cases q with
  | call c => exact Iff.rfl
  | registration a => simp [Request.registered]

theorem Registered.released (h : Registered log e) (he : e.Steady) :
    (e.nodesWith (·.released)).length = (registered log).length := by
  refine he.length_nodesWith h.distinct fun id => (h.unlocked id).trans ?_
  exact exists_congr fun n => and_congr_right fun _ => WorkflowNode.released_iff.symm

theorem Registered.failed (h : Registered log e) (he : e.Steady) :
    (e.nodesWith fun n => n.released && failedFor log n.id).length = log.countP (·.fails) := by
  rw [← length_registered_fails]
  have hsub : (registered (log.filter (·.fails))).Sublist (registered log) :=
    List.filter_sublist.filterMap _
  refine he.length_nodesWith (h.distinct.sublist hsub) fun id => ?_
  constructor
  · intro hid
    obtain ⟨n, hn, hr⟩ := (h.unlocked id).mp (hsub.subset hid)
    obtain rfl := he.sound.keyed id n hn
    refine ⟨n, hn, ?_⟩
    rw [WorkflowNode.released_iff.mpr hr, failedFor_iff.mpr hid]
    rfl
  · rintro ⟨n, hn, hp⟩
    obtain rfl := he.sound.keyed id n hn
    exact failedFor_iff.mp (Bool.and_eq_true_iff.mp hp).2

/-- What the counters of the container cache say of a run, with all that was asked in it. -/
structure CacheReconciled (containers : Nat) (log : List Visit) (w : Workshop) : Prop where
  /-- Each look-up is a hit or a miss. -/
  looked : w.metrics.count .cacheHit + w.metrics.count .cacheMiss = log.countP (·.seeks)
  /-- What was built is cached still, or was evicted. -/
  built : w.liveCount + w.metrics.count .cacheEviction = log.countP (·.builds)
  room : w.liveCount ≤ max 1 containers
  plugins : w.metrics.count .pluginBuild ≤ w.metrics.count .cacheMiss

/-- **Accounts.** In every run from the start, the hits and misses of the container cache are the
look-ups of the calls, the cached containers are those that were built less those that were evicted,
there are no more of them than the cache holds, and no more plugins were built than containers were
missed.  If only queued notifications are processed, the nodes that were counted as unlocked are
those with dependencies that are not locked any longer, and the registrations that were counted as
failed are the failed ones of these nodes. -/
theorem counters_reconcile (containers notifications : Nat) (ops : List Op) :
    (∃ log, Tended (ofCapacity containers notifications) ops log
      (after ops (ofCapacity containers notifications))) ∧
    ∀ log e, Tended (ofCapacity containers notifications) ops log e →
      CacheReconciled containers log e.workshop ∧
      ((∀ op ∈ ops, op.QueuedOnly) →
        e.workshop.metrics.count .nodeUnlocked = (e.nodesWith (·.released)).length ∧
        e.workshop.metrics.count .unlockRegistrationFailed =
          (e.nodesWith fun n => n.released && failedFor log n.id).length) := by
  have he := steady_ofCapacity containers notifications
  refine ⟨exists_tended he ops, fun log e h => ?_⟩
  obtain ⟨hst, hacc, hunlocked, hfailed⟩ := h.audited he (ContainerCache.tidy_ofCapacity containers)
  refine ⟨⟨?_, ?_, ?_, ?_⟩, fun hops => ?_⟩
  · exact hacc.looked.trans (Nat.zero_add _)
  · exact hacc.built.trans (Nat.zero_add _)
  · exact (Lru.Tidy.size_le hacc.tidy).trans_eq hacc.capacity
  · exact hacc.plugins.trans_eq (Nat.zero_add _)
  · have hr := h.registered (logged_ofCapacity containers notifications)
      (fun _ ⟨_, hn, _⟩ => nomatch hn) hops
    rw [hr.released hst, hr.failed hst, hunlocked, hfailed]
    exact ⟨Nat.zero_add _, Nat.zero_add _⟩

/-- Two permits are applied for, which takes turns in a cache for one container.  The first form is
submitted, but there is no store of tasks when the wait for its payment is to be registered. -/
def stranding : List Op :=
  [.create .consignment permit {}, .create .consignment permit {}, .deliver,
    .execute {} ⟨"$1-apply"⟩ ⟨"submit", .null⟩, .outage false .none, .deliver]

/-- Four containers were looked up, three of them were built and two of these evicted; the one node
that was unlocked could not be registered. -/
theorem counters_reconcile_stranded :
    ∃ log e, Tended (ofCapacity 1 1) stranding log e ∧ CacheReconciled 1 log e.workshop ∧
      log.countP (·.seeks) = 4 ∧ log.countP (·.builds) = 3 ∧
      e.workshop.metrics.count .cacheEviction = 2 ∧ (e.nodesWith (·.released)).length = 1 ∧
      (e.nodesWith fun n => n.released && failedFor log n.id).length = 1 := by
  obtain ⟨⟨log, hlog⟩, hall⟩ := counters_reconcile 1 1 stranding
  obtain ⟨hcache, hnodes⟩ := hall log _ hlog
  obtain ⟨hunlocked, hfailed⟩ := hnodes (by simp [stranding, Op.QueuedOnly])
  have hcounts :
      let w := (after stranding (ofCapacity 1 1)).workshop
      w.metrics.count .cacheHit + w.metrics.count .cacheMiss = 4 ∧
        w.liveCount + w.metrics.count .cacheEviction = 3 ∧
        w.metrics.count .cacheEviction = 2 ∧ w.metrics.count .nodeUnlocked = 1 ∧
        w.metrics.count .unlockRegistrationFailed = 1 := by
    simp only [stranding, after, List.foldl_cons, List.foldl_nil, Op.perform,
      createInstance_of_valid permit_valid]
    decide +kernel
  obtain ⟨hlooked, hbuilt, hevicted, hone, hstranded⟩ := hcounts
  exact ⟨log, _, hlog, hcache, hcache.looked.symm.trans hlooked, hcache.built.symm.trans hbuilt,
    hevicted, hunlocked.symm.trans hone, hfailed.symm.trans hstranded⟩

end Engine

end Clearance
