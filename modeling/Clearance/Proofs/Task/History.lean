import Clearance.Proofs.Task.Announced

/-!
# Clearance — Proofs — Task — Histories of the task layer

The calls to the task layer with their answers, one after the other, and whatever happens around
them.

* `Workshop.Between`: what may happen between two calls.
* `Workshop.Runs`: a workshop is left by calls with these answers.
* `Lifecycle.Trail`: the lifecycles of a task, one legal move after the other.
* `Workshop.Runs.trail`: what was sent of a node are the lifecycles that its task went through.
* `Workshop.moves_announced`: what that comes to for every run.
-/

namespace Clearance

/-! ### Trails -/

/-- From `l` a task went through these lifecycles, one after the other, and is at the last of
them. -/
inductive Lifecycle.Trail (l : Lifecycle) : List Lifecycle → Lifecycle → Prop
  | nil : Trail l [] l
  | snoc {ls : List Lifecycle} {m k : Lifecycle} (h : Trail l ls m) (hm : m.canMoveTo k = true) :
      Trail l (ls ++ [k]) k

theorem Lifecycle.Trail.goesOn {l m k : Lifecycle} {ls : List Lifecycle} {move : Option Lifecycle}
    (h : Trail l ls m) (hm : m.GoesOn move k) : Trail l (ls ++ move.toList) k := by
  cases hm with
  | stays => rwa [Option.toList_none, List.append_nil]
  | moves hlegal => exact h.snoc hlegal

/-- The lifecycles of a task that was in progress `k` times and may have ended then. -/
def Lifecycle.progress (k : Nat) (ending : Option Lifecycle) : List Lifecycle :=
  List.replicate k .inProgress ++ ending.toList

/-- A task reports progress any number of times, and may then come to an end. -/
theorem Lifecycle.Trail.shape {ls : List Lifecycle} {m : Lifecycle}
    (h : Trail .initialized ls m) :
    (∃ k, ∃ ending ∈ [none, some .completed, some .failed], ls = progress k ending) ∧
      m = ls.getLastD .initialized := by
  induction h with
  | nil => exact ⟨⟨0, none, by decide, rfl⟩, rfl⟩
  | @snoc ls m next h hm ih =>
      obtain ⟨⟨k, ending, hend, hls⟩, hlast⟩ := ih
      refine ⟨?_, List.getLastD_concat.symm⟩
      simp only [List.mem_cons, List.not_mem_nil, or_false] at hend
      rcases hend with rfl | rfl | rfl
      · -- nothing has ended yet, so the next one may be any but the start
        rw [progress, Option.toList_none, List.append_nil] at hls
        cases next with
        | initialized => cases m <;> cases hm
        | inProgress =>
            refine ⟨k + 1, none, by decide, ?_⟩
            rw [hls, progress, List.replicate_succ', Option.toList_none, List.append_nil]
        | completed => exact ⟨k, some .completed, by decide, by rw [hls]; rfl⟩
        | failed => exact ⟨k, some .failed, by decide, by rw [hls]; rfl⟩
      · rw [hlast, hls, progress, Option.toList_some, List.getLastD_concat] at hm
        cases hm
      · rw [hlast, hls, progress, Option.toList_some, List.getLastD_concat] at hm
        cases hm

namespace Workshop

/-! ### Calls -/

/-- A call to the task layer. -/
inductive Call where
  | init (ctx : CallContext) (a : Activation)
  | execute (ctx : CallContext) (id : NodeId) (q : ActionRequest)
  | render (ctx : CallContext) (id : NodeId)
  | snapshot (id : NodeId)

namespace Call

/-- The answer of a call. -/
inductive Answer where
  | response (r : Except Failure Response)
  | reply (r : Except Failure Reply)
  | copy (r : Except Failure Handle)

/-- The node that a call is about. -/
def node : Call → NodeId
  | .init _ a => a.nodeId
  | .execute _ id _ | .render _ id | .snapshot id => id

/-- The answer of a call and the workshop it leaves. -/
def perform (w : Workshop) : Call → Answer × Workshop
  | .init ctx a => ((Workshop.init ctx a).go w).map .response fun w => w
  | .execute ctx id q => ((Workshop.execute ctx id q).go w).map .response fun w => w
  | .render ctx id => ((Workshop.render ctx id).go w).map .reply fun w => w
  | .snapshot id => ((Workshop.snapshot id).go w).map .copy fun w => w

/-- The move that an answer asks for. -/
def Answer.moveOf : Answer → Option Lifecycle
  | .response r => Response.moveOf r
  | .reply _ | .copy _ => none

/-- The notification that an answer gives rise to. -/
def Answer.noteOf (id : NodeId) : Answer → Option Notification
  | .response r => Response.noteOf id r
  | .reply _ | .copy _ => none

/-- Only a response asks for a move. -/
theorem Answer.response_of_moveOf {a : Answer} {l : Lifecycle} (h : a.moveOf = some l) :
    ∃ x, a = .response (.ok x) ∧ x.newState = some l := by
  cases a with
  | response r =>
      cases r with
      | error _ => cases h
      | ok x => exact ⟨x, rfl, h⟩
  | reply _ => cases h
  | copy _ => cases h

end Call

variable {w w₁ w' : Workshop} {log : List (Call × Call.Answer)}

theorem Call.serves (hw : w.Coherent) (c : Call) : Serves c.node w (c.perform w).2 := by
  cases c with
  | init ctx a => exact init_serves hw ctx a
  | execute ctx id q => exact execute_serves hw ctx id q
  | render ctx id => exact render_serves hw ctx id
  | snapshot id => exact snapshot_serves hw id

theorem Call.reports (hw : w.Coherent) (c : Call) :
    Reports c.node ((c.perform w).1.noteOf c.node) (c.perform w).1.moveOf w (c.perform w).2 := by
  cases c with
  | init ctx a => exact init_reports hw ctx a
  | execute ctx id q => exact execute_reports hw ctx id q
  | render ctx id => exact render_reports hw ctx id
  | snapshot id => exact snapshot_reports hw id

/-! ### Runs -/

/-- What may happen between two calls: containers are evicted, notifications are taken, and the
mailbox, the agencies and what the store fails at come to be what they may. -/
structure Between (w w' : Workshop) : Prop where
  records : w'.store.records = w.store.records
  cache : ∀ id c, w'.cache.entries.values.get? id = some c →
    w.cache.entries.values.get? id = some c
  queue : ∀ n ∈ w'.mailbox.queue, n ∈ w.mailbox.queue
  build : w'.build = w.build

/-- `w'` is left by calls that were answered so. -/
inductive Runs (w : Workshop) : List (Call × Call.Answer) → Workshop → Prop
  | nil : Runs w [] w
  | between {log : List (Call × Call.Answer)} {w₁ w₂ : Workshop} (h : Runs w log w₁)
      (hb : Between w₁ w₂) : Runs w log w₂
  | call {log : List (Call × Call.Answer)} {w₁ : Workshop} (h : Runs w log w₁) (c : Call) :
      Runs w (log ++ [(c, (c.perform w₁).1)]) (c.perform w₁).2

theorem Runs.coherent (h : Runs w log w') (hw : w.Coherent) : w'.Coherent := by
  induction h with
  | nil => exact hw
  | between _ hb ih => exact ih.of_eq hb.records hb.build hb.cache hb.queue
  | call _ c ih => exact (c.serves ih).coherent

/-- The notifications of a node that the answers gave rise to. -/
def sentOf (id : NodeId) (log : List (Call × Call.Answer)) : List Notification :=
  log.flatMap fun e => if e.1.node = id then (e.2.noteOf id).toList else []

theorem sentOf_snoc (id : NodeId) (log : List (Call × Call.Answer)) (e : Call × Call.Answer) :
    sentOf id (log ++ [e]) =
      sentOf id log ++ if e.1.node = id then (e.2.noteOf id).toList else [] := by
  rw [sentOf, List.flatMap_append, List.flatMap_singleton]
  rfl

/-- A notification carries the lifecycle that its answer moves to. -/
theorem Call.Answer.map_lifecycle_noteOf (id : NodeId) (a : Answer) :
    (a.noteOf id).toList.map (·.lifecycle) = a.moveOf.toList.map fun l => some l.text := by
  cases a with
  | response r =>
      cases r with
      | error _ => rfl
      | ok x =>
          simp only [noteOf, moveOf, Response.noteOf, Response.moveOf, Response.notification?]
          cases x.newState <;> rfl
  | reply _ => rfl
  | copy _ => rfl

/-- What was sent of a node are the lifecycles that its task went through. -/
theorem Runs.trail (h : Runs w log w') (hw : w.Coherent) (id : NodeId) :
    ∃ ls, (sentOf id log).map (·.lifecycle) = ls.map (fun l => some l.text) ∧
      Lifecycle.Trail (w.lifecycle id) ls (w'.lifecycle id) := by
  induction h with
  | nil => exact ⟨[], rfl, .nil⟩
  | between _ hb ih =>
      obtain ⟨ls, hsent, ht⟩ := ih
      refine ⟨ls, hsent, ?_⟩
      have hsame := congrArg (·.get? id) hb.records
      rw [lifecycle_congr hsame]
      exact ht
  | @call log w₁ h c ih =>
      obtain ⟨ls, hsent, ht⟩ := ih
      rw [sentOf_snoc]
      by_cases hid : c.node = id
      · rw [if_pos hid]
        subst hid
        have hr := c.reports (h.coherent hw)
        refine ⟨ls ++ (c.perform w₁).1.moveOf.toList, ?_, ht.goesOn hr.course⟩
        rw [List.map_append, List.map_append, hsent, Call.Answer.map_lifecycle_noteOf]
      · rw [if_neg hid, List.append_nil]
        refine ⟨ls, hsent, ?_⟩
        rw [lifecycle_congr ((c.serves (h.coherent hw)).elsewhere id (Ne.symm hid))]
        exact ht

/-- **Announcements.** After any run, a call that is answered by a response with a new state sends
one notification, of its node with that state and with what the response says besides, and leaves
the task there.  Any other call sends none.  So what was sent of a node over the run is that its
task is in progress, any number of times, and then at most one ending, and the last of it is where
the task is. -/
theorem moves_announced (containers notifications : Nat)
    (h : Runs (ofCapacity containers notifications) log w) :
    (∀ c : Call,
      (∀ x s, (c.perform w).1 = .response (.ok x) → x.newState = some s →
        Sends (some ⟨c.node, some s.text, x.extendedState, x.outcome, x.contextUpdates⟩) w
          (c.perform w).2 ∧
        ∃ r, (c.perform w).2.store.records.get? c.node = some r ∧ r.state = s) ∧
      ((∀ x, (c.perform w).1 = .response (.ok x) → x.newState = none) →
        Sends none w (c.perform w).2)) ∧
    ∀ id, ∃ k, ∃ ending ∈ [none, some Lifecycle.completed, some Lifecycle.failed],
      (sentOf id log).map (·.lifecycle) =
        (Lifecycle.progress k ending).map (fun l => some l.text) ∧
      w.lifecycle id = (Lifecycle.progress k ending).getLastD .initialized := by
  have h₀ := coherent_ofCapacity containers notifications
  have hw := h.coherent h₀
  refine ⟨fun c => ⟨fun x s hx hs => ?_, fun hno => ?_⟩, fun id => ?_⟩
  · obtain ⟨hsends, hcourse⟩ := c.reports hw
    rw [hx] at hsends hcourse
    simp only [Call.Answer.noteOf, Response.noteOf, x.notification?_of_some hs] at hsends
    simp only [Call.Answer.moveOf, Response.moveOf, hs] at hcourse
    refine ⟨hsends, ?_⟩
    cases hcourse with
    | moves hlegal =>
        exact get?_of_lifecycle rfl (Lifecycle.canAdvanceTo_of_canMoveTo hlegal).2
  · have hnone : (c.perform w).1.noteOf c.node = none := by
      rcases ha : (c.perform w).1 with (_ | x) | _ | _
      · rfl
      · exact x.notification?_of_none (hno x ha) _
      · rfl
      · rfl
    rw [← hnone]
    exact (c.reports hw).sends
  · obtain ⟨ls, hsent, ht⟩ := h.trail h₀ id
    obtain ⟨⟨k, ending, hend, rfl⟩, hlast⟩ := ht.shape
    exact ⟨k, ending, hend, hsent, hlast⟩

/-- The activation of a form. -/
def opening : Call :=
  .init {} ⟨⟨"$1-apply"⟩, ⟨"$1"⟩, ⟨"apply"⟩, .simpleForm, .obj [("formId", .str "F")], {}⟩

/-- The submission of the form, with nothing filled in. -/
def submission : Call := .execute {} ⟨"$1-apply"⟩ ⟨"submit", .null⟩

/-- A workshop in which the form is open. -/
def withForm : Workshop := (opening.perform (ofCapacity 1 1)).2

/-- The form was announced when it was opened, and is again when it is submitted. -/
theorem moves_announced_submitted :
    ∃ log, Runs (ofCapacity 1 1) log withForm ∧
      (∃ x, (submission.perform withForm).1 = .response (.ok x) ∧
        Sends (some ⟨⟨"$1-apply"⟩, some "COMPLETED", x.extendedState, x.outcome,
          x.contextUpdates⟩) withForm (submission.perform withForm).2) ∧
      ∃ k, ∃ ending ∈ [none, some Lifecycle.completed, some Lifecycle.failed],
        (sentOf ⟨"$1-apply"⟩ log).map (·.lifecycle) =
          (Lifecycle.progress k ending).map (fun l => some l.text) ∧
        withForm.lifecycle ⟨"$1-apply"⟩ = (Lifecycle.progress k ending).getLastD .initialized := by
  have hrun : Runs (ofCapacity 1 1) ([] ++ [(opening, _)]) withForm := .call .nil opening
  have hmove : (submission.perform withForm).1.moveOf = some .completed := by decide +kernel
  obtain ⟨x, hx, hs⟩ := Call.Answer.response_of_moveOf hmove
  obtain ⟨hcalls, htrail⟩ := moves_announced 1 1 hrun
  exact ⟨_, hrun, ⟨x, hx, ((hcalls submission).1 x .completed hx hs).1⟩, htrail ⟨"$1-apply"⟩⟩

end Workshop

end Clearance
