import Clearance.Proofs.Task.History
import Clearance.Proofs.Task.Stage

/-!
# Clearance — Proofs — Task — Moves are legal

A handle checks each move against the lifecycle of its task.  No plugin asks for one that fails the
check: it asks for none on a task that has ended, and for none back to the start.

* `Act.Lawful`: an action that fails in other ways only.
* `Plugin.start_lawful`, `Plugin.execute_lawful`: the logic of the plugins is lawful, and asks for
  no move back to the start.
* `Workshop.Call.legal`: so no call to the task layer is answered by an illegal move.
-/

namespace Clearance

/-- Whether it is the failure of a move that was not legal. -/
def Failure.isIllegalMove : Failure → Bool
  | .illegalMove _ _ _ => true
  | _ => false

/-- Anything but a move that was not legal. -/
def Failure.Legal (f : Failure) : Prop := f.isIllegalMove = false

theorem Failure.Legal.ne {f : Failure} (h : f.Legal) (id : NodeId) (l m : Lifecycle) :
    f ≠ .illegalMove id l m := by
  rintro rfl
  cases h

theorem Except.of_map_eq_error {ε α β : Type} {r : Except ε α} {f : α → β} {e : ε}
    (h : r.map f = .error e) : r = .error e := by
  cases r with
  | error _ =>
      cases h
      rfl
  | ok _ => cases h

namespace Act

variable {σ τ α β : Type} {V : α → Prop} {W : β → Prop}

/-- From any state, `V` holds of an answer, and a failure is not of an illegal move. -/
def Lawful (V : α → Prop) (a : Act σ α) : Prop :=
  ∀ s, a.Ends s (fun x _ => V x) fun f _ => f.Legal

/-- The failure with which something ended, if it is one. -/
def failureOf : Except Failure α → Option Failure
  | .error f => some f
  | .ok _ => none

theorem legal_of_ends {a : Act σ α} {s : σ} {f : Failure}
    (h : a.Ends s (fun _ _ => True) fun f _ => f.Legal) (hf : failureOf (a.go s).1 = some f) :
    f.Legal := by
  rcases hgo : a.go s with ⟨e | _, t⟩
  · rw [hgo] at hf
    cases hf
    exact (ends_iff.mp h).2 f t hgo
  · rw [hgo] at hf
    cases hf

namespace Lawful

theorem pure {x : α} (h : V x) : Lawful V (pure x : Act σ α) := fun _ => h

theorem throw {f : Failure} (h : f.Legal) : Lawful V (throw f : Act σ α) := fun _ => h

theorem lift {r : Except Failure α} (h : ∀ x, r = .ok x → V x) (hf : ∀ f, r = .error f → f.Legal) :
    Lawful V (Act.lift r : Act σ α) := by
  intro s
  rw [ends_lift]
  cases r with
  | error f => exact hf f rfl
  | ok x => exact h x rfl

theorem bind {a : Act σ α} {f : α → Act σ β} (ha : Lawful V a) (hf : ∀ x, V x → Lawful W (f x)) :
    Lawful W (a >>= f) := by
  intro s
  rw [ends_bind]
  exact (ha s).mono (fun x t hx => hf x hx t) fun _ _ h => h

/-- An action on a part of the state. -/
theorem on {part : σ → τ} {put : τ → σ → σ} {a : Act τ α} (ha : Lawful V a) :
    Lawful V (a.on part put) := by
  intro s
  rw [ends_on]
  exact ha (part s)

theorem ite {p : Prop} [Decidable p] {a b : Act σ α} (ha : Lawful V a) (hb : Lawful V b) :
    Lawful V (if p then a else b) := by
  split
  · exact ha
  · exact hb

/-- A check before an action. -/
theorem check {p : Prop} [Decidable p] {e : Failure} {a : PUnit → Act σ α} (he : e.Legal)
    (ha : Lawful V (a ⟨⟩)) :
    Lawful V (if p then (MonadExcept.throw e : Act σ PUnit) >>= a else a ⟨⟩) := by
  refine ite ?_ ha
  exact bind (V := fun _ => False) (Lawful.throw he) fun _ h => h.elim

end Lawful

end Act

open Act

/-! ### The outside -/

theorem TaskStore.failure?_legal {s : TaskStore} {k : Nat} {m : Method} {f : Failure}
    (h : s.failure? k m = some f) : f.Legal := by
  simp only [failure?] at h
  split at h
  · cases h
    exact rfl
  · split at h
    · cases h
    · cases h
      exact rfl

theorem TaskStore.FailedBy.legal {s s' : TaskStore} {f : Failure} (h : s.FailedBy s' f) :
    f.Legal := by
  obtain ⟨k, m, -, -, hm⟩ := h
  exact failure?_legal hm

theorem TaskStore.write_lawful (m : Method) (id : NodeId) (f : TaskRecord → TaskRecord) :
    Lawful (fun _ => True) (do enter m; modify id f : Act TaskStore Unit) := by
  refine .bind (V := fun _ => True) (fun s => ?_) fun _ _ s => ?_
  · refine enter_ends trivial fun e he => ?_
    obtain ⟨k, hk⟩ := he
    exact failure?_legal hk
  · rw [modify, ends_of]
    cases s.records.get? id with
    | none => exact rfl
    | some _ => exact trivial

theorem Agency.readAnswer_legal {url body : String} {status : Nat} {f : Failure}
    (h : readAnswer url status body = .error f) : f.Legal := by
  simp only [readAnswer] at h
  split at h
  · cases h
    exact rfl
  split at h
  · cases h
  split at h
  · cases h
  · cases h
    exact rfl

theorem Agency.call_lawful (ctx : CallContext) (method : HttpMethod) (url : String) (body : Json) :
    Lawful (fun _ => True) (call ctx method url body) := by
  intro s
  rw [call, ends_of]
  by_cases hc : ctx.cancelled = true
  · rw [if_pos hc]
    exact rfl
  rw [if_neg hc]
  cases Url.check url with
  | error _ => exact rfl
  | ok address =>
      dsimp only
      by_cases hr : (!s.reachable) = true
      · rw [if_pos hr]
        exact rfl
      rw [if_neg hr]
      cases ((s.note ⟨method, url, body, true⟩).takeReply (method, url)).1 with
      | refuse => exact rfl
      | hang => exact rfl
      | answer status text =>
          dsimp only
          cases ha : readAnswer url status text with
          | error f => exact readAnswer_legal ha
          | ok _ => exact trivial

theorem objectContent_legal {content : Json} {f : Failure} (h : objectContent content = .error f) :
    f.Legal := by
  cases content <;> cases h
  all_goals exact rfl

/-! ### The logic of the plugins -/

namespace Bench

theorem handleNow_lawful {α : Type} {V : α → Prop} {f : Handle → Act Bench α}
    (hf : ∀ h, Lawful V (f h)) : Lawful V (handleNow >>= f) :=
  .bind (V := fun _ => True) (fun _ => trivial) fun h _ => hf h

theorem setLocal_lawful (key : String) (value : Json) :
    Lawful (fun _ => True) (setLocal key value) :=
  handleNow_lawful fun _ => .bind (.on (TaskStore.write_lawful _ _ _)) fun _ _ _ => trivial

theorem setPluginState_lawful (state : String) : Lawful (fun _ => True) (setPluginState state) :=
  handleNow_lawful fun _ => .bind (.on (TaskStore.write_lawful _ _ _)) fun _ _ _ => trivial

end Bench

/-- A response that does not ask to go back to the start. -/
def Response.Onward (x : Response) : Prop := x.newState.all (· ≠ .initialized) = true

theorem Response.Onward.ne {x : Response} (h : x.Onward) {next : Lifecycle}
    (hn : x.newState = some next) : next ≠ .initialized := by
  rw [Onward, hn] at h
  exact of_decide_eq_true h

open Bench

namespace FormConfig

theorem start_lawful : Lawful Response.Onward start :=
  handleNow_lawful fun _ => .ite (.pure rfl) (.pure rfl)

theorem saveDraft_lawful (content : Json) : Lawful Response.Onward (saveDraft content) :=
  .bind (V := fun _ => True) (.lift (fun _ _ => trivial) fun _ => objectContent_legal) fun _ _ =>
    .bind (setLocal_lawful _ _) fun _ _ => .pure rfl

theorem forward_lawful (c : FormConfig) (ctx : CallContext) (data : Json) :
    Lawful (fun _ => True) (c.forward ctx data) := by
  simp only [forward]
  cases c.submissionUrl with
  | none => exact .pure trivial
  | some url =>
      refine handleNow_lawful fun h => .bind (.on (Agency.call_lawful _ _ _ _)) fun reply _ => ?_
      exact .bind (setLocal_lawful _ _) fun _ _ => .pure trivial

theorem onward_submissionResponse (c : FormConfig) (data : Json) (reply : Option Json) :
    (c.submissionResponse data reply).Onward := by
  simp only [Response.Onward, submissionResponse]
  cases c.requiresReview with
  | true => exact rfl
  | false => exact rfl

theorem submit_lawful (c : FormConfig) (ctx : CallContext) (content : Json) :
    Lawful Response.Onward (c.submit ctx content) := by
  refine handleNow_lawful fun _ => .check rfl ?_
  refine .bind (V := fun _ => True) (.lift (fun _ _ => trivial) fun _ => objectContent_legal) ?_
  refine fun data _ => .bind (forward_lawful c ctx data) fun reply _ => ?_
  exact .bind (setLocal_lawful _ _) fun _ _ => .pure (onward_submissionResponse c data reply)

theorem completeReview_lawful (c : FormConfig) (content : Json) :
    Lawful Response.Onward (c.completeReview content) := by
  refine handleNow_lawful fun _ => .check rfl ?_
  cases decision? content with
  | none => exact .throw rfl
  | some _ => exact .bind (setLocal_lawful _ _) fun _ _ => .pure rfl

theorem execute_lawful (c : FormConfig) (ctx : CallContext) (q : ActionRequest) :
    Lawful Response.Onward (c.execute ctx q) := by
  simp only [execute]
  split
  · exact saveDraft_lawful q.content
  · exact submit_lawful c ctx q.content
  · exact completeReview_lawful c q.content
  · exact .throw rfl

theorem parse_legal {config : Json} {f : Failure} (h : parse config = .error f) : f.Legal := by
  simp only [parse] at h
  split at h
  · cases h
    exact rfl
  · split at h
    · cases h
      exact rfl
    · cases h

end FormConfig

namespace EventConfig

theorem announce_lawful (c : EventConfig) (ctx : CallContext) :
    Lawful (fun _ => True) (c.announce ctx) := by
  simp only [announce]
  cases c.notifyUrl with
  | none => exact .pure trivial
  | some url =>
      refine handleNow_lawful fun h => .bind (.on (Agency.call_lawful _ _ _ _)) fun reply _ => ?_
      exact setLocal_lawful _ _

theorem start_lawful (c : EventConfig) (ctx : CallContext) :
    Lawful Response.Onward (c.start ctx) := by
  refine handleNow_lawful fun h => .ite (.pure rfl) ?_
  dsimp only
  split
  · refine .bind (announce_lawful c ctx) fun _ _ => ?_
    exact .bind (setPluginState_lawful _) fun _ _ => .pure rfl
  · exact .pure rfl

theorem receive_lawful (c : EventConfig) (content : Json) :
    Lawful Response.Onward (c.receive content) := by
  refine .bind (V := fun _ => True) (.lift (fun _ _ => trivial) fun _ => objectContent_legal) ?_
  refine fun content _ => .check rfl ?_
  exact .bind (setLocal_lawful _ _) fun _ _ => .pure rfl

theorem giveUp_lawful (content : Json) : Lawful Response.Onward (giveUp content) :=
  .bind (setLocal_lawful _ _) fun _ _ => .pure rfl

theorem execute_lawful (c : EventConfig) (q : ActionRequest) :
    Lawful Response.Onward (c.execute q) := by
  simp only [execute]
  split
  · exact receive_lawful c q.content
  · exact giveUp_lawful q.content
  · exact .throw rfl

theorem parse_legal {config : Json} {f : Failure} (h : parse config = .error f) : f.Legal := by
  simp only [parse] at h
  split at h
  · cases h
    exact rfl
  · split at h
    · cases h
      exact rfl
    · cases h

end EventConfig

namespace Plugin

theorem start_lawful (p : Plugin) (ctx : CallContext) : Lawful Response.Onward (p.start ctx) := by
  cases p with
  | form c => exact FormConfig.start_lawful
  | event c => exact c.start_lawful ctx

theorem execute_lawful (p : Plugin) (ctx : CallContext) (q : ActionRequest) :
    Lawful Response.Onward (p.execute ctx q) := by
  cases p with
  | form c => exact c.execute_lawful ctx q
  | event c => exact c.execute_lawful q

theorem render_lawful (p : Plugin) (ctx : CallContext) :
    Lawful (fun _ => True) (p.render ctx) := by
  cases p with
  | form c =>
      refine .bind (V := fun _ => True) ?_ fun _ _ => handleNow_lawful fun _ => .pure trivial
      simp only [FormConfig.form]
      split
      · exact .pure trivial
      · exact .pure trivial
      · refine .bind (V := fun _ => True) (fun _ => trivial) fun b _ => ?_
        split
        · exact .pure trivial
        · refine .bind (.on (Agency.call_lawful _ _ _ _)) fun _ _ => ?_
          exact .bind (V := fun _ => True) (fun _ => trivial) fun _ _ => .pure trivial
  | event c => exact handleNow_lawful fun _ => .pure trivial

theorem build_legal {kind : TaskKind} {config : Json} {f : Failure}
    (h : build kind config = .error f) : f.Legal := by
  cases kind with
  | simpleForm => exact FormConfig.parse_legal (Except.of_map_eq_error h)
  | waitForEvent => exact EventConfig.parse_legal (Except.of_map_eq_error h)

end Plugin

/-! ### Starts and actions -/

/-- A task that has not ended may go anywhere but back to the start. -/
theorem Lifecycle.canMoveTo_of_unfinished {l m : Lifecycle} (h : l.isTerminal = false)
    (hm : m ≠ .initialized) : l.canMoveTo m = true := by
  revert h hm
  cases l <;> cases m <;> decide

namespace Bench

variable {b b₁ : Bench} {r : TaskRecord} {logic : Act Bench Response}

/-- Only the store can refuse the move that a task makes which has not ended. -/
theorem settle_onward (h : b.At r) (ht : r.state.isTerminal = false) {x : Response}
    (hx : x.Onward) :
    (settle x).Ends b (fun _ _ => True) fun f b' => b.store.Refuses f ∧ b' = b.called := by
  simp only [settle]
  cases hn : x.newState with
  | none => exact trivial
  | some next =>
      have hmove := Lifecycle.canMoveTo_of_unfinished ht (hx.ne hn)
      rw [ends_bind]
      refine move_ends h next x.extendedState (fun _ => trivial) (fun hno => ?_) fun f hf => ?_
      · cases hmove.symm.trans hno
      · exact ⟨hf, rfl⟩

/-- The move that follows lawful work on a task that has not ended is legal. -/
theorem settle_of_lawful (h : b.At r) (ht : r.state.isTerminal = false)
    (hw : logic.Within Works (fun x _ => x.Placed) b) (hl : Lawful Response.Onward logic) :
    (logic >>= settle).Ends b (fun _ _ => True) fun f _ => f.Legal := by
  rw [ends_bind]
  refine (Ends.and hw (hl b)).mono (fun x b₁ k => ?_) fun _ _ k => k.2
  obtain ⟨⟨hworks, -⟩, hx⟩ := k
  obtain ⟨r₀, r₁, h₀, h₁, hd, -⟩ := hworks
  obtain rfl := h.unique h₀
  refine (settle_onward h₁ (hd.state_eq ▸ ht) hx).mono (fun _ _ _ => trivial) fun f _ hf => ?_
  obtain ⟨⟨m, hm⟩, -⟩ := hf
  exact TaskStore.failure?_legal hm

theorem startBy_legal (h : b.At r) (hw : logic.Within Works (fun x _ => x.Placed) b)
    (hl : Lawful Response.Onward logic) :
    (startBy logic).Ends b (fun _ _ => True) fun f _ => f.Legal := by
  simp only [startBy]
  rw [h.handleNow_bind]
  split
  · exact trivial
  · rename_i ht
    exact settle_of_lawful h (Bool.eq_false_iff.mpr ht) hw hl

theorem executeBy_legal (h : b.At r) (hw : logic.Within Works (fun x _ => x.Placed) b)
    (hl : Lawful Response.Onward logic) :
    (executeBy logic).Ends b (fun _ _ => True) fun f _ => f.Legal := by
  simp only [executeBy]
  rw [h.handleNow_bind]
  split
  · exact rfl
  · rename_i ht
    exact settle_of_lawful h (Bool.eq_false_iff.mpr ht) hw hl

end Bench

namespace Workshop

variable {w : Workshop} {c : Container} {r : TaskRecord}

/-- What fails between a job and the announcement of its response is the job. -/
theorem announced_legal {job : Act Bench Response} {k : NodeId}
    (hj : job.Ends (c.bench w.store w.agency) (fun _ _ => True) fun f _ => f.Legal) :
    (work c job >>= announce k).Ends w (fun _ _ => True) fun f _ => f.Legal := by
  rw [ends_bind, ends_work]
  refine hj.mono (fun x b _ => ?_) fun _ _ hf => hf
  simp only [announce]
  cases x.notification? k with
  | none => exact trivial
  | some _ => exact trivial

theorem resolve_legal (hw : w.Coherent) {id : NodeId} {α : Type}
    {next : Container → Act Workshop α}
    (hn : ∀ c r w₁, w₁.Has c r → (next c).Ends w₁ (fun _ _ => True) fun f _ => f.Legal) :
    (resolve id >>= next).Ends w (fun _ _ => True) fun f _ => f.Legal := by
  rw [ends_bind]
  refine (resolve_ends hw id).mono (fun c w₁ h => ?_) fun e w₁ h => ?_
  · obtain ⟨-, r, -, hc⟩ := h
    exact hn c r w₁ hc
  · obtain ⟨-, hfail | ⟨-, rfl⟩⟩ := h
    · exact hfail.legal
    · exact rfl

theorem init_legal (hw : w.Coherent) (hb : w.build = Plugin.build) (ctx : CallContext)
    (a : Activation) : (init ctx a).Ends w (fun _ _ => True) fun f _ => f.Legal := by
  simp only [init, ends_bind, ends_ite, ends_throw]
  split
  · exact rfl
  · refine (activate_ends hw a).mono (fun c w₁ h => ?_) fun e w₁ h => ?_
    · obtain ⟨-, -, hc, -⟩ := h
      rw [← ends_bind]
      exact announced_legal (Bench.startBy_legal hc.bench_at
        (Plugin.start_works hc.bench_at c.plugin ctx) (c.plugin.start_lawful ctx))
    · obtain ⟨-, hfail | ⟨-, hbuild⟩⟩ := h
      · exact hfail.legal
      · exact Plugin.build_legal (hb ▸ hbuild)

theorem execute_legal (hw : w.Coherent) (ctx : CallContext) (id : NodeId) (q : ActionRequest) :
    (execute ctx id q).Ends w (fun _ _ => True) fun f _ => f.Legal := by
  simp only [execute]
  by_cases hq : Text.isBlankText q.action = true
  · rw [if_pos hq]
    exact rfl
  · rw [if_neg hq]
    refine resolve_legal hw fun c r w₁ hc => ?_
    exact announced_legal (Bench.executeBy_legal hc.bench_at
      (Plugin.execute_works hc.bench_at c.plugin ctx q) (c.plugin.execute_lawful ctx q))

theorem render_legal (hw : w.Coherent) (ctx : CallContext) (id : NodeId) :
    (render ctx id).Ends w (fun _ _ => True) fun f _ => f.Legal := by
  refine resolve_legal hw fun c r w₁ hc => ?_
  rw [ends_work]
  exact c.plugin.render_lawful ctx _

theorem snapshot_legal (hw : w.Coherent) (id : NodeId) :
    (snapshot id).Ends w (fun _ _ => True) fun f _ => f.Legal :=
  resolve_legal hw fun _ _ _ _ => trivial

/-- The failure that an answer is, if it is one. -/
def Call.Answer.failure? : Answer → Option Failure
  | .response r => Act.failureOf r
  | .reply r => Act.failureOf r
  | .copy r => Act.failureOf r

/-- No call to the task layer is answered by an illegal move. -/
theorem Call.legal (hw : w.Coherent) (hb : w.build = Plugin.build) (c : Call) {f : Failure}
    (h : (c.perform w).1.failure? = some f) : f.Legal := by
  cases c with
  | init ctx a => exact legal_of_ends (init_legal hw hb ctx a) h
  | execute ctx id q => exact legal_of_ends (execute_legal hw ctx id q) h
  | render ctx id => exact legal_of_ends (render_legal hw ctx id) h
  | snapshot id => exact legal_of_ends (snapshot_legal hw id) h

end Workshop

end Clearance
