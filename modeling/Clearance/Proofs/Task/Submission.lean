import Clearance.Proofs.Task.Spent
import Clearance.Proofs.Task.Undone

/-!
# Clearance — Proofs — Task — Submissions are made once

* `Workshop.Asks`: what an operation on a node asks of agencies, by the record of the node.
* `Workshop.Call.asks`: every operation asks so.
* `Workshop.Dealings`: a workshop is left by calls that asked this of agencies.
* `Workshop.Dealings.held`: over a run whose store secures the submissions of a kind, the record of
  a node of that kind shows whether one succeeded.
* `Workshop.submitted_once`: so no submission follows one that succeeded.
-/

namespace Clearance

namespace Workshop

open TaskRecord

variable {w w₁ w₂ w' : Workshop} {id : NodeId} {log heard : List Inquiry}

/-! ### Operations -/

/-- What an operation on a node asks of agencies: nothing, or what the plugin asks that works with
the record of the node, which may be new. -/
inductive Asks (id : NodeId) (w : Workshop) : List Inquiry → Workshop → Prop
  | nothing {w' : Workshop} (agency : w'.agency = w.agency)
      (record : w'.store.records.get? id = w.store.records.get? id) : Asks id w [] w'
  | works {log : List Inquiry} {w' : Workshop} {r r' : TaskRecord} (node : r.id = id)
      (before : ∀ x, w.store.records.get? id = some x → x = r)
      (after : w'.store.records.get? id = some r') (same : r.Same r')
      (heard : w.agency.Hears log w'.agency) (discreet : Discreet w.store r log r') :
      Asks id w log w'

theorem Asks.hears (h : Asks id w log w') : w.agency.Hears log w'.agency := by
  cases h with
  | nothing agency _ =>
      rw [agency]
      exact .nil
  | works _ _ _ _ heard _ => exact heard

theorem Asks.short (h : Asks id w log w') : log.length ≤ 1 := by
  cases h with
  | nothing _ _ => exact Nat.zero_le 1
  | works _ _ _ _ _ discreet => exact discreet.short

/-- Nothing is submitted for another node. -/
theorem Asks.own (h : Asks id w log w') {k : NodeId} (hk : id ≠ k) :
    ∀ q ∈ log, ¬ q.Submits k := by
  cases h with
  | nothing _ _ => exact List.forall_mem_nil _
  | works node _ _ _ _ discreet =>
      intro q hq hsub
      exact hk (node.symm.trans (discreet.own q hq k hsub).1.symm)

/-- What the mailbox and the counters are like does not matter. -/
theorem Asks.of_eq (h : Asks id w log w₁) (ha : w₂.agency = w₁.agency) (hs : w₂.store = w₁.store) :
    Asks id w log w₂ := by
  cases h with
  | nothing agency record => exact .nothing (ha.trans agency) (hs ▸ record)
  | works node before after same heard discreet =>
      exact .works node before (hs ▸ after) same (ha ▸ heard) discreet

theorem Kept.asks (h : Kept w w') : Asks id w [] w' := .nothing h.agency (by rw [h.records])

section Operations

variable {c : Container} {r : TaskRecord}

/-- What a plugin did at its bench is what the operation asks. -/
theorem asks_keeping (hcalm : Calm w w₁) (hnode : r.id = id)
    (hbefore : ∀ x, w.store.records.get? id = some x → x = r) {b : Bench}
    (hb : Bench.Discreetly (c.bench w₁.store w₁.agency) r b) :
    ∃ log, Asks id w log (w₁.keeping c b) := by
  obtain ⟨log, r', hr', hsame, hheard, hd⟩ := hb
  refine ⟨log, .works hnode hbefore ?_ hsame ?_ (hd.of_onward hcalm.onward)⟩
  · rw [← hnode, ← hsame.id]
    exact hr'.stored
  · rw [← hcalm.agency]
    exact hheard

/-- A job of the plugin, and the announcement of its response. -/
theorem work_asks (hcalm : Calm w w₁) (hnode : r.id = id)
    (hbefore : ∀ x, w.store.records.get? id = some x → x = r) {job : Act Bench Response}
    (hj : job.Ends (c.bench w₁.store w₁.agency)
      (fun _ => Bench.Discreetly (c.bench w₁.store w₁.agency) r)
      fun _ => Bench.Discreetly (c.bench w₁.store w₁.agency) r) (k : NodeId) :
    (work c job >>= announce k).Ends w₁ (fun _ w₂ => ∃ log, Asks id w log w₂)
      fun _ w₂ => ∃ log, Asks id w log w₂ := by
  rw [Act.ends_bind, ends_work]
  refine hj.mono (fun x b hb => ?_) fun _ b hb => asks_keeping hcalm hnode hbefore hb
  obtain ⟨log, hasks⟩ := asks_keeping hcalm hnode hbefore hb
  simp only [announce]
  cases x.notification? k with
  | none => exact ⟨log, hasks⟩
  | some _ => exact ⟨log, hasks.of_eq rfl rfl⟩

theorem init_asks (hw : w.Coherent) (hb : w.build = Plugin.build) (ctx : CallContext)
    (a : Activation) :
    (init ctx a).Ends w (fun _ w' => ∃ log, Asks a.nodeId w log w')
      fun _ w' => ∃ log, Asks a.nodeId w log w' := by
  simp only [init]
  split
  · exact ⟨[], (Kept.refl hw).asks⟩
  rw [Act.ends_bind]
  refine (activate_ends hw a).mono (fun c w₁ h => ?_) fun _ w₁ h => ⟨[], h.1.asks⟩
  obtain ⟨hcalm, -, hc, -⟩ := h
  have hkind := Plugin.kind_of_build ((hcalm.build.trans hb) ▸ hc.built)
  refine work_asks hcalm (id_begun hw a) (fun x hx => ?_)
    (c.plugin.start_discreet hc.bench_at hkind ctx) _
  rw [begun_of_get? hx]

/-- What follows the container of a node that was activated before. -/
theorem resolve_asks (hw : w.Coherent) (hb : w.build = Plugin.build) {α : Type}
    {next : Container → Act Workshop α}
    (hn : ∀ c r w₁, Calm w w₁ → r.id = id → (∀ x, w.store.records.get? id = some x → x = r) →
      (c.bench w₁.store w₁.agency).At r → c.plugin.kind = r.kind →
      (next c).Ends w₁ (fun _ w₂ => ∃ log, Asks id w log w₂) fun _ w₂ => ∃ log, Asks id w log w₂) :
    (resolve id >>= next).Ends w (fun _ w' => ∃ log, Asks id w log w')
      fun _ w' => ∃ log, Asks id w log w' := by
  rw [Act.ends_bind]
  refine (resolve_ends hw id).mono (fun c w₁ h => ?_) fun _ w₁ h => ⟨[], h.1.asks⟩
  obtain ⟨hkept, r, hr, hc⟩ := h
  refine hn c r w₁ hkept.toCalm (hw.keyed id r hr) (fun x hx => ?_) hc.bench_at ?_
  · exact Option.some.inj (hx.symm.trans hr)
  · exact Plugin.kind_of_build ((hkept.build.trans hb) ▸ hc.built)

theorem execute_asks (hw : w.Coherent) (hb : w.build = Plugin.build) (ctx : CallContext)
    (id : NodeId) (q : ActionRequest) :
    (execute ctx id q).Ends w (fun _ w' => ∃ log, Asks id w log w')
      fun _ w' => ∃ log, Asks id w log w' := by
  unfold execute
  by_cases hq : Text.isBlankText q.action = true
  · rw [if_pos hq]
    exact ⟨[], (Kept.refl hw).asks⟩
  · rw [if_neg hq]
    refine resolve_asks hw hb fun c r w₁ hcalm hnode hbefore hat hkind => ?_
    exact work_asks hcalm hnode hbefore (c.plugin.execute_discreet hat hkind ctx q) _

theorem render_asks (hw : w.Coherent) (hb : w.build = Plugin.build) (ctx : CallContext)
    (id : NodeId) :
    (render ctx id).Ends w (fun _ w' => ∃ log, Asks id w log w')
      fun _ w' => ∃ log, Asks id w log w' := by
  refine resolve_asks hw hb fun c r w₁ hcalm hnode hbefore hat _ => ?_
  rw [ends_work]
  exact (c.plugin.render_discreet hat ctx).mono (fun _ _ h => asks_keeping hcalm hnode hbefore h)
    fun _ _ h => asks_keeping hcalm hnode hbefore h

theorem snapshot_asks (hw : w.Coherent) (id : NodeId) :
    (snapshot id).Ends w (fun _ w' => ∃ log, Asks id w log w')
      fun _ w' => ∃ log, Asks id w log w' := by
  rw [snapshot, Act.ends_bind]
  exact (resolve_ends hw id).mono (fun _ w₁ h => ⟨[], h.1.asks⟩) fun _ w₁ h => ⟨[], h.1.asks⟩

end Operations

/-- Whatever fails, a call asks no more than this of agencies. -/
theorem Call.asks (hw : w.Coherent) (hb : w.build = Plugin.build) (c : Call) :
    ∃ log, Asks c.node w log (c.perform w).2 := by
  cases c with
  | init ctx a => exact Act.ends_state.mp (init_asks hw hb ctx a)
  | execute ctx id q => exact Act.ends_state.mp (execute_asks hw hb ctx id q)
  | render ctx id => exact Act.ends_state.mp (render_asks hw hb ctx id)
  | snapshot id => exact Act.ends_state.mp (snapshot_asks hw id)

/-! ### Runs -/

/-- `w'` is left by calls that asked this of agencies, each with a store that is as `ok` says. -/
inductive Dealings (ok : TaskStore → Prop) (w : Workshop) : List Inquiry → Workshop → Prop
  | nil : Dealings ok w [] w
  | between {log : List Inquiry} {w₁ w₂ : Workshop} (h : Dealings ok w log w₁)
      (hb : Between w₁ w₂) : Dealings ok w log w₂
  | call {log heard : List Inquiry} {w₁ : Workshop} (h : Dealings ok w log w₁) (hs : ok w₁.store)
      (c : Call) (hc : w₁.agency.Hears heard (c.perform w₁).2.agency) :
      Dealings ok w (log ++ heard) (c.perform w₁).2

variable {ok : TaskStore → Prop}

theorem Dealings.runs (h : Dealings ok w log w') : ∃ answers, Runs w answers w' := by
  induction h with
  | nil => exact ⟨[], .nil⟩
  | between _ hb ih =>
      obtain ⟨answers, hr⟩ := ih
      exact ⟨answers, hr.between hb⟩
  | call _ _ c _ ih =>
      obtain ⟨answers, hr⟩ := ih
      exact ⟨_, hr.call c⟩

/-- What was submitted for a node of this kind shows in its record. -/
structure Held (kind : TaskKind) (id : NodeId) (log : List Inquiry) (w : Workshop) : Prop where
  absent : w.store.records.get? id = none → ∀ q ∈ log, ¬ q.Submits id
  once : ∀ r, w.store.records.get? id = some r → r.kind = kind → SubmittedOnce id log
  spent : ∀ r, w.store.records.get? id = some r → r.kind = kind →
    (∃ q ∈ log, q.Accepted id) → r.Spent

variable {kind : TaskKind}

/-- More that was asked, but not submitted for the node, with its record as it was. -/
theorem Held.append_silent (h : Held kind id log w) (hno : ∀ q ∈ heard, ¬ q.Submits id)
    (hshort : heard.length ≤ 1) (hr : w'.store.records.get? id = w.store.records.get? id) :
    Held kind id (log ++ heard) w' where
  absent hnone := List.forall_mem_append.mpr ⟨h.absent (hr ▸ hnone), hno⟩
  once r hget hk := (h.once r (hr ▸ hget) hk).append hshort fun _ => hno
  spent r hget hk := by
    rintro ⟨q, hq, hacc⟩
    rcases List.mem_append.mp hq with hq | hq
    · exact h.spent r (hr ▸ hget) hk ⟨q, hq, hacc⟩
    · exact absurd hacc.1 (hno q hq)

/-- What the record of a node was before an operation, if there was one, is what it shows. -/
theorem Held.before (h : Held kind id log w) {r : TaskRecord} (hk : r.kind = kind)
    (hr : ∀ x, w.store.records.get? id = some x → x = r) :
    SubmittedOnce id log ∧ ((∃ q ∈ log, q.Accepted id) → r.Spent) := by
  cases hget : w.store.records.get? id with
  | none =>
      have hno := h.absent hget
      exact ⟨.of_none hno, fun ⟨q, hq, hacc⟩ => absurd hacc.1 (hno q hq)⟩
  | some x =>
      obtain rfl := hr x hget
      exact ⟨h.once x hget hk, h.spent x hget hk⟩

/-- An operation on a node keeps what its record shows. -/
theorem Held.asks (h : Held kind id log w) (hs : w.store.Secures kind) (ha : Asks id w heard w') :
    Held kind id (log ++ heard) w' := by
  cases ha with
  | nothing _ record =>
      exact h.append_silent (List.forall_mem_nil _) (Nat.zero_le 1) record
  | @works _ _ r r' node before after same _ discreet =>
      have hback : ∀ x, w'.store.records.get? id = some x → x.kind = kind →
          x = r' ∧ r.kind = kind := by
        intro x hx hk
        obtain rfl := Option.some.inj (after.symm.trans hx)
        exact ⟨rfl, same.kind.symm.trans hk⟩
      refine ⟨fun hno => ?_, fun x hx hk => ?_, fun x hx hk => ?_⟩
      · exact nomatch hno.symm.trans after
      · obtain ⟨honce, hspent⟩ := h.before (hback x hx hk).2 before
        refine honce.append discreet.short fun hacc q hq hsub => ?_
        exact (discreet.own q hq id hsub).2 (hspent hacc)
      · obtain ⟨rfl, hkind⟩ := hback x hx hk
        obtain ⟨-, hspent⟩ := h.before hkind before
        rintro ⟨q, hq, hacc⟩
        rcases List.mem_append.mp hq with hq | hq
        · exact discreet.kept (hspent ⟨q, hq, hacc⟩)
        · exact discreet.spent (hkind ▸ hs) ⟨q, hq, node ▸ hacc⟩

/-- Over a run whose store secures the submissions of a kind, the records show them. -/
theorem Dealings.held (h : Dealings ok w log w') (hw : w.Coherent) (hb : w.build = Plugin.build)
    (hempty : ∀ id, w.store.records.get? id = none) (hok : ∀ s, ok s → s.Secures kind)
    (id : NodeId) : Held kind id log w' := by
  induction h with
  | nil =>
      have hno := hempty id
      refine ⟨fun _ => List.forall_mem_nil _, fun r hr => ?_, fun r hr => ?_⟩
      · exact nomatch hno.symm.trans hr
      · exact nomatch hno.symm.trans hr
  | @between log _ _ _ hbetween ih =>
      have hsame := congrArg (·.get? id) hbetween.records
      rw [← List.append_nil log]
      exact ih.append_silent (List.forall_mem_nil _) (Nat.zero_le 1) hsame
  | @call log heard w₁ h hs c hc ih =>
      obtain ⟨answers, hr⟩ := h.runs
      have hw₁ := hr.coherent hw
      obtain ⟨heard', ha⟩ := c.asks hw₁ ((hr.build hw).trans hb)
      obtain rfl := ha.hears.unique hc
      by_cases hid : c.node = id
      · rw [hid] at ha
        exact ih.asks (hok _ hs) ha
      · exact ih.append_silent (ha.own hid) ha.short
          ((c.serves hw₁).elsewhere id (Ne.symm hid))

theorem Held.submittedOnce (h : Held kind id log w)
    (hk : ∀ r, w.store.records.get? id = some r → r.kind = kind) : SubmittedOnce id log := by
  cases hr : w.store.records.get? id with
  | none => exact .of_none (h.absent hr)
  | some r => exact h.once r hr (hk r hr)

/-- What a call asks of agencies is told by the workshops before and after it. -/
theorem Dealings.hears {containers notifications : Nat}
    (h : Dealings ok (ofCapacity containers notifications) log w) (c : Call) :
    w.agency.Hears (w.agency.heard (c.perform w).2.agency) (c.perform w).2.agency := by
  have h₀ := coherent_ofCapacity containers notifications
  obtain ⟨answers, hr⟩ := h.runs
  obtain ⟨heard, ha⟩ := c.asks (hr.coherent h₀) (hr.build h₀)
  rw [← ha.hears.eq_heard]
  exact ha.hears

/-- **Submissions.** After any run over a store that does not fail, at most one submission to an
agency on behalf of a node has succeeded, and none was attempted after it.  For the announcement of
a wait it is enough that local data and plugin states are written without fail, whichever other
calls to the store fail.  Any call may follow on a run, and there is one account of what it asks. -/
theorem submitted_once (containers notifications : Nat) :
    (∀ log w, Dealings TaskStore.Up (ofCapacity containers notifications) log w →
      ∀ id, SubmittedOnce id log) ∧
    (∀ log w, Dealings TaskStore.Retains (ofCapacity containers notifications) log w →
      ∀ id, (∀ r, w.store.records.get? id = some r → r.kind = .waitForEvent) →
        SubmittedOnce id log) ∧
    ∀ ok log w, Dealings ok (ofCapacity containers notifications) log w →
      ∀ c : Call, ∃! heard, w.agency.Hears heard (c.perform w).2.agency := by
  have h₀ := coherent_ofCapacity containers notifications
  refine ⟨fun log w h id => ?_, fun log w h id hk => ?_, fun ok log w h c => ?_⟩
  · obtain ⟨kind, hk⟩ : ∃ kind, ∀ r, w.store.records.get? id = some r → r.kind = kind := by
      cases w.store.records.get? id with
      | none => exact ⟨.simpleForm, fun _ hr => nomatch hr⟩
      | some r => exact ⟨r.kind, fun _ hr => congrArg TaskRecord.kind (Option.some.inj hr).symm⟩
    exact (h.held h₀ rfl (fun _ => rfl) (fun _ hup => hup.secures kind) id).submittedOnce hk
  · exact (h.held h₀ rfl (fun _ => rfl) (fun _ hs => hs.secures) id).submittedOnce hk
  · exact ⟨_, h.hears c, fun _ hother => hother.eq_heard⟩

/-- The workshop with a store that fails so, and with an agency that has an answer ready. -/
def facing (w : Workshop) (faults : Faults TaskStore.Method) : Workshop :=
  { w with
    store := { w.store with available := true, faults := faults }
    agency := {
      replies := Table.empty.insert (.post, "http://agency.test/") [.answer 200 "{}"] } }

/-- What calls ask that are made one after the other, each of them facing that, and the workshop
they leave. -/
def facingAll (faults : Faults TaskStore.Method) : Workshop → List Call → List Inquiry × Workshop
  | w, [] => ([], w)
  | w, c :: rest =>
    let before := w.facing faults
    let after := (c.perform before).2
    (before.agency.heard after.agency ++ (facingAll faults after rest).1,
      (facingAll faults after rest).2)

theorem Dealings.facingAll {containers notifications : Nat}
    (h : Dealings ok (ofCapacity containers notifications) log w)
    (faults : Faults TaskStore.Method) (hok : ∀ w : Workshop, ok (w.facing faults).store)
    (calls : List Call) :
    Dealings ok (ofCapacity containers notifications)
      (log ++ (facingAll faults w calls).1) (Workshop.facingAll faults w calls).2 := by
  induction calls generalizing log w with
  | nil =>
      rw [Workshop.facingAll, List.append_nil]
      exact h
  | cons c rest ih =>
      have hface : Between w (w.facing faults) := ⟨rfl, fun _ _ hc => hc, fun _ hn => hn, rfl⟩
      have hcall := (h.between hface).call (hok w) c ((h.between hface).hears c)
      rw [Workshop.facingAll, ← List.append_assoc]
      exact ih hcall

/-- A form that is forwarded to an agency. -/
def forwarded : Call :=
  .init {} ⟨⟨"$1-apply"⟩, ⟨"$1"⟩, ⟨"apply"⟩, .simpleForm,
    .obj [("formId", .str "F"), ("submissionUrl", .str "http://agency.test/")], {}⟩

/-- A wait that a service is told of. -/
def announced : Call :=
  .init {} ⟨⟨"$1-paid"⟩, ⟨"$1"⟩, ⟨"paid"⟩, .waitForEvent,
    .obj [("event", .str "paid"), ("notifyUrl", .str "http://agency.test/")], {}⟩

/-- A form that is submitted twice is forwarded once.  A service is told once of a wait that is
activated twice, although no move of it is written. -/
theorem submitted_once_repeated :
    (∃ log w, Dealings TaskStore.Up (ofCapacity 1 1) log w ∧
      (log.filter (·.Accepted ⟨"$1-apply"⟩)).length = 1 ∧ SubmittedOnce ⟨"$1-apply"⟩ log) ∧
    ∃ log w, Dealings TaskStore.Retains (ofCapacity 1 1) log w ∧
      w.lifecycle ⟨"$1-paid"⟩ = .initialized ∧
      (log.filter (·.Accepted ⟨"$1-paid"⟩)).length = 1 ∧ SubmittedOnce ⟨"$1-paid"⟩ log := by
  have hforms : Dealings TaskStore.Up (ofCapacity 1 1) _ _ :=
    Dealings.nil.facingAll .none (fun _ => ⟨rfl, rfl⟩) [forwarded, submission, submission]
  have hevents : Dealings TaskStore.Retains (ofCapacity 1 1) _ _ :=
    Dealings.nil.facingAll (.everyCallTo [.updateState]) (fun _ => ⟨fun _ => rfl, fun _ => rfl⟩)
      [announced, announced]
  refine ⟨⟨_, _, hforms, by decide +kernel, (submitted_once 1 1).1 _ _ hforms _⟩,
    _, _, hevents, by decide +kernel, by decide +kernel,
    (submitted_once 1 1).2.1 _ _ hevents _ fun r hr => ?_⟩
  have hkind : ((facingAll (.everyCallTo [.updateState]) (ofCapacity 1 1)
      [announced, announced]).2.store.records.get? ⟨"$1-paid"⟩).map TaskRecord.kind =
        some .waitForEvent := by
    decide +kernel
  rw [hr] at hkind
  exact Option.some.inj hkind

end Workshop

end Clearance
