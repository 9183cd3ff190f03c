import Clearance.Ids
import Clearance.Proofs.Act
import Clearance.Task.Agency

/-!
# Clearance — Proofs — Task — What agencies are asked

The journal of an agency says which calls were attempted, but not how they ended.

* `Agency.Hears`: from one state of an agency to another, these calls were made and answered so.
* `Agency.heard`: the states alone tell which calls these were and how they were answered
  (`Hears.eq_heard`), so there is no second account of them (`Hears.unique`).
* `Inquiry.Submits`, `Inquiry.Accepted`: the submissions on behalf of a task, and those that
  succeeded.
* `SubmittedOnce`: no submission follows one that succeeded.
-/

namespace Clearance

/-- A call to an agency with the value it was answered by, unless it failed. -/
structure Inquiry where
  method : HttpMethod
  url : String
  body : Json
  answer : Option Json
  deriving DecidableEq

namespace Agency

/-- Calls that were answered so, one after the other, lead from one state to the other. -/
inductive Hears : Agency → List Inquiry → Agency → Prop
  | nil {a : Agency} : Hears a [] a
  | cons {a a' : Agency} {log : List Inquiry} (ctx : CallContext) (method : HttpMethod)
      (url : String) (body : Json) (h : Hears ((call ctx method url body).go a).2 log a') :
      Hears a (⟨method, url, body, ((call ctx method url body).go a).1.toOption⟩ :: log) a'

/-! ### The journal tells -/

/-- What a call is answered by that is noted so. -/
def answerTo (a : Agency) (c : AgencyCall) : Option Json :=
  if c.sent then
    match ((a.note c).takeReply (c.method, c.url)).1 with
    | .answer status text => (readAnswer c.url status text).toOption
    | .refuse | .hang => none
  else none

/-- The state that a call leaves that is noted so. -/
def after (a : Agency) (c : AgencyCall) : Agency :=
  if c.sent then ((a.note c).takeReply (c.method, c.url)).2 else a.note c

/-- The calls that are noted so, with their answers. -/
def replay (a : Agency) : List AgencyCall → List Inquiry
  | [] => []
  | c :: rest => ⟨c.method, c.url, c.body, a.answerTo c⟩ :: (a.after c).replay rest

/-- The calls noted from one state to the other, with their answers. -/
def heard (a a' : Agency) : List Inquiry := a.replay (a'.journal.drop a.journal.length)

variable {a a' : Agency} {log log' : List Inquiry}

/-- How a call ends and what it leaves are decided by whether a request went out. -/
theorem go_call (a : Agency) (ctx : CallContext) (method : HttpMethod) (url : String)
    (body : Json) :
    ∃ sent, ((call ctx method url body).go a).2 = a.after ⟨method, url, body, sent⟩ ∧
      ((call ctx method url body).go a).1.toOption = a.answerTo ⟨method, url, body, sent⟩ := by
  rw [call, Act.go_of]
  dsimp only
  split
  · exact ⟨false, rfl, rfl⟩
  cases Url.check url with
  | error _ => exact ⟨false, rfl, rfl⟩
  | ok _ =>
      dsimp only
      split
      · exact ⟨false, rfl, rfl⟩
      · refine ⟨true, ?_⟩
        simp only [after, answerTo, if_true]
        rcases ((a.note ⟨method, url, body, true⟩).takeReply (method, url)) with ⟨_ | _ | _, _⟩
        · exact ⟨rfl, rfl⟩
        · exact ⟨rfl, rfl⟩
        · exact ⟨rfl, rfl⟩

theorem journal_takeReply (a : Agency) (key : HttpMethod × String) :
    (a.takeReply key).2.journal = a.journal := by
  unfold takeReply
  split <;> rfl

theorem journal_after (a : Agency) (c : AgencyCall) : (a.after c).journal = a.journal ++ [c] := by
  unfold after
  split
  · exact journal_takeReply _ _
  · rfl

theorem journal_foldl_after (a : Agency) (noted : List AgencyCall) :
    (noted.foldl after a).journal = a.journal ++ noted := by
  induction noted generalizing a with
  | nil => exact (List.append_nil _).symm
  | cons c rest ih =>
      rw [List.foldl_cons, ih, journal_after, List.append_assoc, List.singleton_append]

theorem Hears.replay (h : Hears a log a') :
    ∃ noted : List AgencyCall, a' = noted.foldl after a ∧ log = a.replay noted := by
  induction h with
  | nil => exact ⟨[], rfl, rfl⟩
  | @cons a a' log ctx method url body _ ih =>
      obtain ⟨noted, hend, hlog⟩ := ih
      obtain ⟨sent, hstate, hanswer⟩ := go_call a ctx method url body
      rw [hstate] at hend hlog
      refine ⟨⟨method, url, body, sent⟩ :: noted, hend, ?_⟩
      rw [hanswer, hlog]
      rfl

theorem Hears.eq_heard (h : Hears a log a') : log = a.heard a' := by
  obtain ⟨noted, rfl, rfl⟩ := h.replay
  rw [heard, journal_foldl_after, List.drop_left]

/-- There is no second account of what was asked. -/
theorem Hears.unique (h : Hears a log a') (h' : Hears a log' a') : log = log' :=
  h.eq_heard.trans h'.eq_heard.symm

end Agency

/-! ### Submissions -/

namespace Inquiry

/-- A submission on behalf of the task, however it ended. -/
def Submits (id : NodeId) (q : Inquiry) : Prop :=
  q.method = .post ∧ q.body.get? "taskId" = some (.str id.text)

/-- A submission on behalf of the task that succeeded. -/
def Accepted (id : NodeId) (q : Inquiry) : Prop := q.Submits id ∧ q.answer.isSome = true

instance (id : NodeId) (q : Inquiry) : Decidable (q.Submits id) :=
  inferInstanceAs (Decidable (_ ∧ _))

instance (id : NodeId) (q : Inquiry) : Decidable (q.Accepted id) :=
  inferInstanceAs (Decidable (_ ∧ _))

end Inquiry

/-- A submission is one inquiry, on behalf of its task alone. -/
theorem Agency.hears_submit (a : Agency) (ctx : CallContext) (url : String) (data : Json)
    (task : NodeId) (workflow : InstanceId) :
    ∃ q : Inquiry, a.Hears [q] ((submit ctx url data task workflow).go a).2 ∧
      q.answer = ((submit ctx url data task workflow).go a).1.toOption ∧
      ∀ id, q.Submits id → id = task := by
  refine ⟨_, .cons ctx .post url _ .nil, rfl, fun id h => ?_⟩
  have htask : task.text = id.text := Json.str.inj (Option.some.inj h.2)
  cases id
  cases task
  exact congrArg NodeId.mk htask.symm

/-- What is fetched is one inquiry, and not a submission. -/
theorem Agency.hears_fetch (a : Agency) (ctx : CallContext) (url : String) :
    ∃ q : Inquiry, a.Hears [q] ((fetch ctx url).go a).2 ∧ ∀ id, ¬ q.Submits id :=
  ⟨_, .cons ctx .get url .null .nil, fun _ h => nomatch h.1⟩

/-- At most one submission on behalf of the task succeeded, and none was attempted after it. -/
structure SubmittedOnce (id : NodeId) (log : List Inquiry) : Prop where
  once : (log.filter (·.Accepted id)).length ≤ 1
  last : log.Pairwise fun q later => q.Accepted id → ¬ later.Submits id

namespace SubmittedOnce

variable {id : NodeId} {log more : List Inquiry}

theorem of_last (h : log.Pairwise fun q later => q.Accepted id → ¬ later.Submits id) :
    SubmittedOnce id log := by
  refine ⟨?_, h⟩
  have hpair := h.filter (·.Accepted id)
  have hall : ∀ q ∈ log.filter (·.Accepted id), q.Accepted id :=
    fun q hq => of_decide_eq_true (List.mem_filter.mp hq).2
  generalize log.filter (·.Accepted id) = accepted at hpair hall ⊢
  rcases accepted with _ | ⟨q, _ | ⟨later, rest⟩⟩
  · exact Nat.zero_le 1
  · exact Nat.le_refl 1
  · have hlater : later ∈ q :: later :: rest := List.mem_cons_of_mem q List.mem_cons_self
    exact absurd (hall later hlater).1
      (List.rel_of_pairwise_cons hpair List.mem_cons_self (hall q List.mem_cons_self))

theorem of_none (h : ∀ q ∈ log, ¬ q.Submits id) : SubmittedOnce id log :=
  .of_last (List.pairwise_of_forall_mem_list fun _ _ later hlater _ => h later hlater)

/-- One more inquiry, which is no submission if one has succeeded. -/
theorem append (h : SubmittedOnce id log) (hshort : more.length ≤ 1)
    (hmore : (∃ q ∈ log, q.Accepted id) → ∀ q ∈ more, ¬ q.Submits id) :
    SubmittedOnce id (log ++ more) := by
  refine .of_last (List.pairwise_append.mpr ⟨h.last, ?_, fun q hq later hlater hacc => ?_⟩)
  · rcases more with _ | ⟨q, _ | _⟩
    · exact .nil
    · exact List.pairwise_singleton _ q
    · simp at hshort
  · exact hmore ⟨q, hq, hacc⟩ later hlater

end SubmittedOnce

end Clearance
