import Clearance.Proofs.Tables
import Clearance.Proofs.Task.Bench
import Mathlib.Data.List.TakeWhile

/-!
# Clearance — Proofs — Task — The stages of a task

* `FormConfig.Stage`, `EventConfig.Stage`: what the record of a task is, by the actions on it that
  were committed.
* `Bench.Keeps`, `Bench.Acts`: what the logic of a plugin does to the record, and what the move that
  it asks for adds to that.
* `Plugin.start_shows`, `Plugin.execute_shows`: whichever call to the store fails, a start leaves a
  task at a stage of the same actions, and so does an action unless it is committed itself.
-/

namespace Clearance

/-! ### Forms -/

namespace FormConfig

/-- The local data of a form holds what the request submitted and, if there is an agency, what it
replied. -/
structure Holds (c : FormConfig) (l : Context) (q : ActionRequest) : Prop where
  action : q.action = "submit"
  submission : ∃ data, objectContent q.content = .ok data ∧ l.get? "submission" = some data
  forwarded : c.submissionUrl ≠ none → l.get? "submissionResponse" ≠ none

/-- The request is a review that comes to a decision. -/
structure Decides (q : ActionRequest) : Prop where
  action : q.action = "review_complete"
  decision : ∃ text, q.content.get? "decision" = some (.str text) ∧ Text.isBlankText text = false

/-- How far a form is, by the actions on it that were committed. -/
inductive Stage (c : FormConfig) (r : TaskRecord) : List ActionRequest → Prop
  | fresh (hs : r.state = .initialized) (hp : r.pluginState = none) : Stage c r []
  | opened (hs : r.state = .inProgress) (hp : r.pluginState = some FormState.awaitingInput) :
      Stage c r []
  | awaiting {q : ActionRequest} (hr : c.requiresReview = true) (hs : r.state = .inProgress)
      (hp : r.pluginState = some FormState.awaitingReview) (hq : c.Holds r.localState q) :
      Stage c r [q]
  | submitted {q : ActionRequest} (hr : c.requiresReview = false) (hs : r.state = .completed)
      (hp : r.pluginState = some FormState.submitted) (hq : c.Holds r.localState q) :
      Stage c r [q]
  | reviewed {q q' : ActionRequest} (hr : c.requiresReview = true) (hs : r.state = .completed)
      (hp : r.pluginState = some FormState.reviewed) (hq : c.Holds r.localState q)
      (hd : Decides q') : Stage c r [q, q']

end FormConfig

/-! ### Events -/

/-- How far a wait is, by the actions on it that were committed. -/
inductive EventConfig.Stage (r : TaskRecord) : List ActionRequest → Prop
  | fresh (hs : r.state = .initialized) (hp : r.pluginState = none) : Stage r []
  /-- The service was told of the wait, and the move that should have followed failed. -/
  | announced (hs : r.state = .initialized) (hp : r.pluginState = some EventState.waiting) :
      Stage r []
  | waiting (hs : r.state = .inProgress) (hp : r.pluginState = some EventState.waiting) : Stage r []
  | received {q : ActionRequest} (hs : r.state = .completed)
      (hp : r.pluginState = some EventState.received) (hq : q.action = "event_received") :
      Stage r [q]
  | failed {q : ActionRequest} (hs : r.state = .failed)
      (hp : r.pluginState = some EventState.failed) (hq : q.action = "event_failed") : Stage r [q]

/-! ### What the stages tell -/

namespace FormConfig.Stage

variable {c : FormConfig} {r : TaskRecord} {done : List ActionRequest}

theorem mem_states (h : c.Stage r done) : (r.state, r.pluginState) ∈
    [(.initialized, none), (.inProgress, some FormState.awaitingInput),
      (.inProgress, some FormState.awaitingReview), (.completed, some FormState.submitted),
      (.completed, some FormState.reviewed)] := by
  cases h with
  | fresh hs hp => simp [hs, hp]
  | opened hs hp => simp [hs, hp]
  | awaiting _ hs hp _ => simp [hs, hp]
  | submitted _ hs hp _ => simp [hs, hp]
  | reviewed _ hs hp _ _ => simp [hs, hp]

/-- A form that needs a review is completed by one. -/
theorem of_completed (h : c.Stage r done) (hr : c.requiresReview = true)
    (hs : r.state = .completed) : r.pluginState = some FormState.reviewed ∧
      ∃ q q', done = [q, q'] ∧ c.Holds r.localState q ∧ Decides q' := by
  cases h with
  | fresh hs' _ => exact nomatch hs'.symm.trans hs
  | opened hs' _ => exact nomatch hs'.symm.trans hs
  | awaiting _ hs' _ _ => exact nomatch hs'.symm.trans hs
  | submitted hr' _ _ _ => exact nomatch hr'.symm.trans hr
  | @reviewed q q' _ _ hp hq hd => exact ⟨hp, q, q', rfl, hq, hd⟩

/-- Only a form that needs a review comes to one. -/
theorem requires (h : c.Stage r done) (hp : r.pluginState = some FormState.awaitingReview ∨
    r.pluginState = some FormState.reviewed) : c.requiresReview = true := by
  cases h with
  | fresh _ hp' => simp [hp'] at hp
  | opened _ hp' => exact absurd hp (by rw [hp']; decide)
  | awaiting hr _ _ _ => exact hr
  | submitted _ _ hp' _ => exact absurd hp (by rw [hp']; decide)
  | reviewed hr _ _ _ _ => exact hr

/-- Once a form was submitted there is one submission, and the record holds it. -/
theorem of_submitted (h : c.Stage r done)
    (hp : r.pluginState ∈ [some FormState.awaitingReview, some FormState.submitted,
      some FormState.reviewed]) :
    ∃ q, done.filter (·.action = "submit") = [q] ∧ c.Holds r.localState q := by
  cases h with
  | fresh _ hp' => simp [hp'] at hp
  | opened _ hp' => exact absurd hp (by rw [hp']; decide)
  | @awaiting q _ _ _ hq => exact ⟨q, by simp [hq.action], hq⟩
  | @submitted q _ _ _ hq => exact ⟨q, by simp [hq.action], hq⟩
  | @reviewed q q' _ _ _ hq hd => exact ⟨q, by simp [hq.action, hd.action], hq⟩

end FormConfig.Stage

theorem EventConfig.Stage.mem_states {r : TaskRecord} {done : List ActionRequest}
    (h : EventConfig.Stage r done) : (r.state, r.pluginState) ∈
    [(.initialized, none), (.initialized, some EventState.waiting),
      (.inProgress, some EventState.waiting), (.completed, some EventState.received),
      (.failed, some EventState.failed)] := by
  cases h with
  | fresh hs hp => simp [hs, hp]
  | announced hs hp => simp [hs, hp]
  | waiting hs hp => simp [hs, hp]
  | received hs hp _ => simp [hs, hp]
  | failed hs hp _ => simp [hs, hp]

/-- How far a task is, by the actions on it that were committed. -/
def Plugin.Stage (r : TaskRecord) (done : List ActionRequest) : Plugin → Prop
  | .form c => c.Stage r done
  | .event _ => EventConfig.Stage r done

theorem Plugin.of_build_form {config : Json} {p : Plugin}
    (h : build .simpleForm config = .ok p) :
    ∃ c, FormConfig.parse config = .ok c ∧ p = .form c := by
  simp only [build] at h
  cases hc : FormConfig.parse config with
  | error f => rw [hc] at h; cases h
  | ok c =>
      rw [hc] at h
      exact ⟨c, rfl, (Except.ok.inj h).symm⟩

theorem Plugin.of_build_event {config : Json} {p : Plugin}
    (h : build .waitForEvent config = .ok p) : ∃ c, p = .event c := by
  simp only [build] at h
  cases hc : EventConfig.parse config with
  | error f => rw [hc] at h; cases h
  | ok c =>
      rw [hc] at h
      exact ⟨c, (Except.ok.inj h).symm⟩

/-! ### What a response leads to -/

/-- The record once the move of a response is carried out. -/
def TaskRecord.moved (r : TaskRecord) (x : Response) : TaskRecord :=
  match x.newState with
  | none => r
  | some next => { r with state := next, pluginState := x.extendedState.or r.pluginState }

/-- The request, if it is committed by being answered so: with a response that moves the task. -/
def ActionRequest.committedBy (q : ActionRequest) : Except Failure Response → List ActionRequest
  | .ok x => if x.newState = none then [] else [q]
  | .error _ => []

/-- The records are of one task. -/
structure TaskRecord.Same (r r' : TaskRecord) : Prop where
  id : r'.id = r.id
  kind : r'.kind = r.kind
  config : r'.config = r.config

namespace Bench

theorem Works.same {b b' : Bench} (h : Works b b') {r r' : TaskRecord} (hr : b.At r)
    (hr' : b'.At r') : r.Same r' := by
  obtain ⟨r₀, r₁, h₀, h₁, ⟨_, _, rfl, -⟩, -⟩ := h
  obtain rfl := hr.unique h₀
  obtain rfl := hr'.unique h₁
  exact ⟨rfl, rfl, rfl⟩

theorem Settled.same {x : Response} {b b' : Bench} (h : Settled x b b') {r r' : TaskRecord}
    (hr : b.At r) (hr' : b'.At r') : r.Same r' := by
  rcases h with ⟨-, hw⟩ | ⟨_, _, -, -, r₀, _, h₀, h₁, -, -⟩
  · exact hw.same hr hr'
  · obtain rfl := hr.unique h₀
    obtain rfl := hr'.unique h₁
    exact ⟨rfl, rfl, rfl⟩

/-- The record of the bench satisfies `S`. -/
def Shows (S : TaskRecord → Prop) (b : Bench) : Prop := ∃ r, b.At r ∧ S r

/-- The logic keeps `S`, and with the move that its response asks for `S'`. -/
def Keeps (S : TaskRecord → Prop) (S' : Response → TaskRecord → Prop) (logic : Act Bench Response)
    (b : Bench) : Prop :=
  logic.Ends b (fun x => Shows fun r => S r ∧ S' x (r.moved x)) fun _ => Shows S

/-- The logic of the action `q` leaves the stage to the actions before it, and with the move that
its response asks for to these and the action, if it is committed. -/
def Acts (Stage : TaskRecord → List ActionRequest → Prop) (done : List ActionRequest)
    (q : ActionRequest) (logic : Act Bench Response) (b : Bench) : Prop :=
  Keeps (Stage · done) (fun x r => Stage r (done ++ q.committedBy (.ok x))) logic b

section Steps

variable {b : Bench} {r : TaskRecord} {S : TaskRecord → Prop} {S' : Response → TaskRecord → Prop}

theorem At.called (h : b.At r) : b.called.At r := ⟨h.stored, h.copied⟩

theorem At.handleNow_bind {α : Type} (h : b.At r) {f : Handle → Act Bench α}
    {ok : α → Bench → Prop} {fail : Failure → Bench → Prop} :
    (handleNow >>= f).Ends b ok fail ↔ (f (.ofRecord r)).Ends b ok fail := by
  rw [Act.ends_bind, handleNow, Act.ends_of, ← h.copied]

theorem setLocal_at (h : b.At r) (key : String) (value : Json) :
    (setLocal key value).Ends b
      (fun _ b' => b'.At { r with localState := r.localState.insert key value })
      fun _ b' => b'.At r :=
  setLocal_ends h key value (at_put _ _) fun _ _ => h.called

theorem At.setLocal_bind {α : Type} (h : b.At r) (key : String) (value : Json)
    {f : Unit → Act Bench α} {ok : α → Bench → Prop} {fail : Failure → Bench → Prop}
    (hfail : ∀ e b', b'.At r → fail e b')
    (hok : ∀ b', b'.At { r with localState := r.localState.insert key value } →
      (f ()).Ends b' ok fail) :
    (setLocal key value >>= f).Ends b ok fail := by
  rw [Act.ends_bind]
  exact (setLocal_at h key value).mono (fun _ b' => hok b') hfail

theorem setPluginState_at (h : b.At r) (state : String) :
    (setPluginState state).Ends b (fun _ b' => b'.At { r with pluginState := some state })
      fun _ b' => b'.At r :=
  setPluginState_ends h state (at_put _ _) fun _ _ => h.called

/-- Carrying out the move of a response may fail, and then changes nothing. -/
theorem settle_shows (h : b.At r) {x : Response} (hS : S r) (hS' : S' x (r.moved x)) :
    (settle x).Ends b (fun y => Shows (S' y)) fun _ => Shows S := by
  simp only [settle]
  cases hx : x.newState with
  | none =>
      rw [TaskRecord.moved, hx] at hS'
      exact ⟨r, h, hS'⟩
  | some next =>
      rw [TaskRecord.moved, hx] at hS'
      rw [Act.ends_bind]
      exact move_ends h next x.extendedState (fun _ => ⟨_, at_put _ _, hS'⟩)
        (fun _ => ⟨r, h, hS⟩) fun _ _ => ⟨r, h.called, hS⟩

theorem Keeps.settle {logic : Act Bench Response} (hl : Keeps S S' logic b) :
    (logic >>= settle).Ends b (fun x => Shows (S' x)) fun _ => Shows S := by
  rw [Act.ends_bind]
  refine Act.Ends.mono hl (fun x b' k => ?_) fun _ _ k => k
  obtain ⟨r', h', hS, hS'⟩ := k
  exact settle_shows h' hS hS'

theorem startBy_shows (h : b.At r) (hS : S r) {logic : Act Bench Response}
    (hl : r.state.isTerminal = false → Keeps S (fun _ => S) logic b) :
    (startBy logic).Ends b (fun _ => Shows S) fun _ => Shows S := by
  simp only [startBy]
  rw [h.handleNow_bind]
  split
  · exact ⟨r, h, hS⟩
  · rename_i ht
    exact (hl (Bool.eq_false_iff.mpr ht)).settle

theorem executeBy_shows (h : b.At r) (hS : S r) {logic : Act Bench Response}
    (hl : r.state.isTerminal = false → Keeps S S' logic b) :
    (executeBy logic).Ends b (fun x => Shows (S' x)) fun _ => Shows S := by
  simp only [executeBy]
  rw [h.handleNow_bind]
  split
  · exact ⟨r, h, hS⟩
  · rename_i ht
    exact (hl (Bool.eq_false_iff.mpr ht)).settle

end Steps

end Bench

/-! ### The logic of forms -/

namespace FormConfig

open Bench

variable {b : Bench} {r : TaskRecord} {c : FormConfig} {done : List ActionRequest}

/-- Other local data leaves what the record holds of a submission. -/
theorem Holds.insert {l : Context} {q : ActionRequest} (h : c.Holds l q) {key : String}
    (value : Json) (hkey : key ∉ ["submission", "submissionResponse"]) :
    c.Holds (l.insert key value) q := by
  have hsub := List.ne_of_not_mem_cons hkey
  have hresp := List.ne_of_not_mem_cons (List.not_mem_of_not_mem_cons hkey)
  refine ⟨h.action, ?_, ?_⟩
  · rw [Context.get?_insert, if_neg (Ne.symm hsub)]
    exact h.submission
  · rw [Context.get?_insert, if_neg (Ne.symm hresp)]
    exact h.forwarded

/-- Other local data leaves a form where it is. -/
theorem Stage.insert (h : c.Stage r done) {key : String} (value : Json)
    (hkey : key ∉ ["submission", "submissionResponse"]) :
    c.Stage { r with localState := r.localState.insert key value } done := by
  cases h with
  | fresh hs hp => exact .fresh hs hp
  | opened hs hp => exact .opened hs hp
  | awaiting hr hs hp hq => exact .awaiting hr hs hp (hq.insert value hkey)
  | submitted hr hs hp hq => exact .submitted hr hs hp (hq.insert value hkey)
  | reviewed hr hs hp hq hd => exact .reviewed hr hs hp (hq.insert value hkey) hd

/-- Before anything was submitted the local data does not matter. -/
theorem Stage.unsubmitted (h : c.Stage r done) (ht : r.state.isTerminal = false)
    (hp : r.pluginState ≠ some FormState.awaitingReview) :
    done = [] ∧ ∀ l, c.Stage { r with localState := l } [] := by
  cases h with
  | fresh hs hp => exact ⟨rfl, fun _ => .fresh hs hp⟩
  | opened hs hp => exact ⟨rfl, fun _ => .opened hs hp⟩
  | awaiting _ _ hp' _ => exact absurd hp' hp
  | submitted _ hs _ _ => rw [hs] at ht; cases ht
  | reviewed _ hs _ _ _ => rw [hs] at ht; cases ht

theorem Stage.of_initialized (h : c.Stage r done) (hs : r.state = .initialized) : done = [] := by
  cases h with
  | fresh _ _ => rfl
  | opened hs' _ => exact nomatch hs.symm.trans hs'
  | awaiting _ hs' _ _ => exact nomatch hs.symm.trans hs'
  | submitted _ hs' _ _ => exact nomatch hs.symm.trans hs'
  | reviewed _ hs' _ _ _ => exact nomatch hs.symm.trans hs'

theorem Stage.of_awaiting (h : c.Stage r done)
    (hp : r.pluginState = some FormState.awaitingReview) :
    c.requiresReview = true ∧ ∃ q, done = [q] ∧ c.Holds r.localState q := by
  cases h with
  | fresh _ hp' => exact nomatch hp'.symm.trans hp
  | opened _ hp' => exact absurd (hp'.symm.trans hp) (by decide)
  | @awaiting q hr _ _ hq => exact ⟨hr, q, rfl, hq⟩
  | submitted _ _ hp' _ => exact absurd (hp'.symm.trans hp) (by decide)
  | reviewed _ _ hp' _ _ => exact absurd (hp'.symm.trans hp) (by decide)

theorem start_keeps (h : b.At r) (hS : c.Stage r done) :
    Keeps (c.Stage · done) (fun _ r' => c.Stage r' done) start b := by
  simp only [Keeps, start]
  rw [h.handleNow_bind]
  split
  · rename_i hs
    obtain rfl := hS.of_initialized hs
    exact ⟨r, h, hS, .opened rfl rfl⟩
  · exact ⟨r, h, hS, hS⟩

theorem saveDraft_acts (h : b.At r) (hS : c.Stage r done) (q : ActionRequest) :
    Acts c.Stage done q (saveDraft q.content) b := by
  simp only [Acts, Keeps, saveDraft]
  rw [Act.ends_bind, Act.ends_lift]
  cases objectContent q.content with
  | error _ => exact ⟨r, h, hS⟩
  | ok draft =>
      dsimp only
      refine h.setLocal_bind "draft" draft (fun _ _ h₁ => ⟨r, h₁, hS⟩) fun b₁ h₁ => ?_
      have hS₁ : c.Stage { r with localState := r.localState.insert "draft" draft } done :=
        hS.insert draft (by decide)
      refine ⟨_, h₁, hS₁, ?_⟩
      show c.Stage _ (done ++ [])
      rw [List.append_nil]
      exact hS₁

/-- What is forwarded is replied to, or nothing of it stays. -/
theorem forward_at (h : b.At r) (c : FormConfig) (ctx : CallContext) (data : Json) :
    (c.forward ctx data).Ends b
      (fun _ b' => ∃ l, b'.At { r with localState := l } ∧
        (c.submissionUrl ≠ none → l.get? "submissionResponse" ≠ none))
      fun _ b' => b'.At r := by
  simp only [forward]
  cases c.submissionUrl with
  | none => exact ⟨r.localState, h, fun hno => absurd rfl hno⟩
  | some url =>
      dsimp only
      rw [h.handleNow_bind, Act.ends_bind]
      refine (onAgency_still b _).mono (fun reply b₁ k => ?_) fun _ _ k => h.still k
      refine (h.still k).setLocal_bind "submissionResponse" reply (fun _ _ h₂ => h₂) fun b₂ h₂ => ?_
      refine ⟨_, h₂, fun _ => ?_⟩
      rw [Context.get?_insert, if_pos rfl]
      exact nofun

/-- Taking a submission commits it, or leaves the form unsubmitted. -/
theorem submit_acts (h : b.At r) (hS : c.Stage r done) (ht : r.state.isTerminal = false)
    (ctx : CallContext) {q : ActionRequest} (hq : q.action = "submit") :
    Acts c.Stage done q (c.submit ctx q.content) b := by
  simp only [Acts, Keeps, submit]
  rw [h.handleNow_bind]
  split
  · exact ⟨r, h, hS⟩
  rename_i hno
  -- an unfinished form that does not await its review was not submitted before
  obtain ⟨rfl, hfree⟩ := hS.unsubmitted ht fun hp => hno (.inl hp)
  rw [Act.ends_bind, Act.ends_lift]
  cases hdata : objectContent q.content with
  | error _ => exact ⟨r, h, hS⟩
  | ok data =>
      dsimp only
      rw [Act.ends_bind]
      refine (forward_at h c ctx data).mono (fun reply b₁ k => ?_) fun _ _ h₁ => ⟨r, h₁, hS⟩
      obtain ⟨l, h₁, hreply⟩ := k
      refine h₁.setLocal_bind "submission" data (fun _ _ h₂ => ⟨_, h₂, hfree l⟩) fun b₂ h₂ => ?_
      refine ⟨_, h₂, hfree _, ?_⟩
      have hholds : c.Holds (l.insert "submission" data) q := by
        refine ⟨hq, ⟨data, hdata, ?_⟩, fun hurl => ?_⟩
        · rw [Context.get?_insert, if_pos rfl]
        · rw [Context.get?_insert, if_neg (by decide)]
          exact hreply hurl
      rw [submissionResponse]
      cases hr : c.requiresReview with
      | true => exact .awaiting hr rfl rfl hholds
      | false => exact .submitted hr rfl rfl hholds

theorem isBlankText_of_trim {text : String} (h : Text.trim text ≠ "") :
    Text.isBlankText text = false := by
  rw [← Bool.not_eq_true]
  intro hblank
  refine h ?_
  have hnone : text.toList.dropWhile Text.isBlank = [] :=
    List.dropWhile_eq_nil_iff.mpr (List.all_eq_true.mp hblank)
  rw [Text.trim, hnone]
  rfl

/-- A decision is a text that is not blank. -/
theorem decides_of_decision? {q : ActionRequest} {d : String} (hq : q.action = "review_complete")
    (h : decision? q.content = some d) : Decides q := by
  refine ⟨hq, ?_⟩
  unfold decision? at h
  obtain ⟨v, hv, h⟩ := Option.bind_eq_some_iff.mp h
  obtain ⟨text, htext, h⟩ := Option.bind_eq_some_iff.mp h
  have hv' : v = .str text := by
    unfold Json.str? at htext
    split at htext
    · rw [Option.some.inj htext]
    · cases htext
  dsimp only at h
  split at h
  · cases h
  · rename_i hne
    exact ⟨text, hv.trans (congrArg some hv'), isBlankText_of_trim hne⟩

/-- A decision completes a form that awaits its review, and nothing else does. -/
theorem completeReview_acts (h : b.At r) (hS : c.Stage r done) {q : ActionRequest}
    (hq : q.action = "review_complete") :
    Acts c.Stage done q (c.completeReview q.content) b := by
  simp only [Acts, Keeps, completeReview]
  rw [h.handleNow_bind]
  split
  · exact ⟨r, h, hS⟩
  rename_i hp
  obtain ⟨hr, q₀, rfl, hholds⟩ := hS.of_awaiting (not_not.mp hp)
  split
  · exact ⟨r, h, hS⟩
  · rename_i d hd
    refine h.setLocal_bind "review" q.content (fun _ _ h₁ => ⟨r, h₁, hS⟩) fun b₁ h₁ => ?_
    refine ⟨_, h₁, hS.insert q.content (by decide), ?_⟩
    exact .reviewed hr rfl rfl (hholds.insert q.content (by decide)) (decides_of_decision? hq hd)

theorem execute_acts (h : b.At r) (hS : c.Stage r done) (ht : r.state.isTerminal = false)
    (ctx : CallContext) (q : ActionRequest) :
    Acts c.Stage done q (c.execute ctx q) b := by
  simp only [execute]
  split
  · exact saveDraft_acts h hS q
  · rename_i hq
    exact submit_acts h hS ht ctx hq
  · rename_i hq
    exact completeReview_acts h hS hq
  · exact ⟨r, h, hS⟩

end FormConfig

/-! ### The logic of events -/

namespace EventConfig

open Bench

variable {b : Bench} {r : TaskRecord} {done : List ActionRequest}

/-- Local data leaves a wait where it is. -/
theorem Stage.local (h : Stage r done) (l : Context) : Stage { r with localState := l } done := by
  cases h with
  | fresh hs hp => exact .fresh hs hp
  | announced hs hp => exact .announced hs hp
  | waiting hs hp => exact .waiting hs hp
  | received hs hp hq => exact .received hs hp hq
  | failed hs hp hq => exact .failed hs hp hq

/-- An unfinished wait has had no action committed. -/
theorem Stage.unfinished (h : Stage r done) (ht : r.state.isTerminal = false) : done = [] := by
  cases h with
  | received hs _ _ => rw [hs] at ht; cases ht
  | failed hs _ _ => rw [hs] at ht; cases ht
  | _ => rfl

theorem announce_at (h : b.At r) (c : EventConfig) (ctx : CallContext) :
    (c.announce ctx).Ends b (fun _ b' => ∃ l, b'.At { r with localState := l })
      fun _ b' => b'.At r := by
  simp only [announce]
  cases c.notifyUrl with
  | none => exact ⟨r.localState, h⟩
  | some url =>
      dsimp only
      rw [h.handleNow_bind, Act.ends_bind]
      refine (onAgency_still b _).mono (fun reply b₁ k => ?_) fun _ _ k => h.still k
      exact (setLocal_at (h.still k) "notifyResponse" reply).mono (fun _ b₂ h₂ => ⟨_, h₂⟩)
        fun _ _ h₂ => h₂

theorem start_keeps (h : b.At r) (hS : Stage r done) (c : EventConfig) (ctx : CallContext) :
    Keeps (Stage · done) (fun _ r' => Stage r' done) (c.start ctx) b := by
  simp only [Keeps, start]
  rw [h.handleNow_bind]
  split
  · exact ⟨r, h, hS, hS⟩
  rename_i hs
  have hs : r.state = .initialized := not_not.mp hs
  obtain rfl := hS.unfinished (by rw [hs]; rfl)
  split
  · rw [Act.ends_bind]
    refine (announce_at h c ctx).mono (fun _ b₁ k => ?_) fun _ _ h₁ => ⟨r, h₁, hS⟩
    obtain ⟨l, h₁⟩ := k
    rw [Act.ends_bind]
    refine (setPluginState_at h₁ EventState.waiting).mono (fun _ b₂ h₂ => ?_)
      fun _ _ h₂ => ⟨_, h₂, hS.local l⟩
    exact ⟨_, h₂, .announced hs rfl, .waiting rfl rfl⟩
  · exact ⟨r, h, hS, .waiting rfl rfl⟩

theorem receive_acts (h : b.At r) (hS : Stage r done) (ht : r.state.isTerminal = false)
    (c : EventConfig) {q : ActionRequest} (hq : q.action = "event_received") :
    Acts Stage done q (c.receive q.content) b := by
  obtain rfl := hS.unfinished ht
  simp only [Acts, Keeps, receive]
  rw [Act.ends_bind, Act.ends_lift]
  cases objectContent q.content with
  | error _ => exact ⟨r, h, hS⟩
  | ok content =>
      dsimp only
      split
      · exact ⟨r, h, hS⟩
      · refine h.setLocal_bind "event" content (fun _ _ h₁ => ⟨r, h₁, hS⟩) fun b₁ h₁ => ?_
        exact ⟨_, h₁, hS.local _, .received rfl rfl hq⟩

theorem giveUp_acts (h : b.At r) (hS : Stage r done) (ht : r.state.isTerminal = false)
    {q : ActionRequest} (hq : q.action = "event_failed") :
    Acts Stage done q (giveUp q.content) b := by
  obtain rfl := hS.unfinished ht
  simp only [Acts, Keeps, giveUp]
  refine h.setLocal_bind "failure" q.content (fun _ _ h₁ => ⟨r, h₁, hS⟩) fun b₁ h₁ => ?_
  exact ⟨_, h₁, hS.local _, .failed rfl rfl hq⟩

theorem execute_acts (h : b.At r) (hS : Stage r done) (ht : r.state.isTerminal = false)
    (c : EventConfig) (q : ActionRequest) :
    Acts Stage done q (c.execute q) b := by
  simp only [execute]
  split
  · rename_i hq
    exact receive_acts h hS ht c hq
  · rename_i hq
    exact giveUp_acts h hS ht hq
  · exact ⟨r, h, hS⟩

end EventConfig

/-! ### The plugins -/

namespace Plugin

open Bench

variable {b : Bench} {r : TaskRecord} {done : List ActionRequest} {p : Plugin}

/-- A start leaves a task at a stage of the same actions. -/
theorem start_shows (h : b.At r) (hS : p.Stage r done) (ctx : CallContext) :
    (startBy (p.start ctx)).Ends b (fun _ => Shows (p.Stage · done))
      fun _ => Shows (p.Stage · done) := by
  refine startBy_shows h hS fun _ => ?_
  cases p with
  | form c => exact FormConfig.start_keeps h hS
  | event c => exact EventConfig.start_keeps h hS c ctx

/-- An action is committed if its response asks for a move, and then the task has moved.  If not,
and if the action fails, the task is at a stage of the actions committed before. -/
theorem execute_shows (h : b.At r) (hS : p.Stage r done) (ctx : CallContext) (q : ActionRequest) :
    (executeBy (p.execute ctx q)).Ends b
      (fun x => Shows (p.Stage · (done ++ q.committedBy (.ok x))))
      fun _ => Shows (p.Stage · done) := by
  refine executeBy_shows h hS fun ht => ?_
  cases p with
  | form c => exact FormConfig.execute_acts h hS ht ctx q
  | event c => exact EventConfig.execute_acts h hS ht c q

end Plugin

end Clearance
