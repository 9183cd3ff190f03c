import Clearance.Proofs.Task.Inquiry
import Clearance.Proofs.Task.Legal
import Clearance.Proofs.Task.Stage

/-!
# Clearance — Proofs — Task — What a plugin asks of agencies

A submission is made once because the record shows it, but the record is written after the agency has
answered, by calls to the store that may fail.

* `TaskStore.Secures`: the calls that write what shows a submission do not fail.
* `TaskRecord.Spent`: the record shows that nothing is to be submitted for its task any more.
* `TaskRecord.Discreet`: with which record agencies were asked, and which it is then.  There is one
  submission at most, and none if the record was spent; it is spent afterwards if the agency
  accepted and the store secures that.
* `Plugin.start_discreet`, `Plugin.execute_discreet`, `Plugin.render_discreet`: the plugins ask so,
  whichever calls fail.
-/

namespace Clearance

namespace TaskStore

variable {s s' : TaskStore} {m : Method} {kind : TaskKind}

/-- No call of the method fails. -/
def Spares (s : TaskStore) (m : Method) : Prop := ∀ k, s.failure? k m = none

theorem Up.spares (h : s.Up) (m : Method) : s.Spares m := fun k => h.failure?_eq_none k m

theorem Onward.failure?_eq (h : s.Onward s') (k : Nat) (m : Method) :
    s'.failure? k m = s.failure? k m := by
  rw [failure?, failure?, h.faults, h.available]

theorem Onward.spares (h : s.Onward s') (hs : s.Spares m) : s'.Spares m :=
  fun k => (h.failure?_eq k m).trans (hs k)

theorem Onward.not_spares (h : s.Onward s') {k : Nat} {e : Failure}
    (he : s'.failure? k m = some e) : ¬ s.Spares m :=
  fun hs => nomatch (h.spares hs k).symm.trans he

/-- What shows a submission for a task of this kind is written without fail: for a form with its
move, for a wait with its plugin state alone. -/
def Secures (s : TaskStore) : TaskKind → Prop
  | .simpleForm => s.Spares .updateLocalState ∧ s.Spares .updateState
  | .waitForEvent => s.Spares .updateLocalState ∧ s.Spares .updatePluginState

/-- Local data and plugin states are written without fail, whatever else fails. -/
def Retains (s : TaskStore) : Prop := s.Spares .updateLocalState ∧ s.Spares .updatePluginState

theorem Up.secures (h : s.Up) (kind : TaskKind) : s.Secures kind := by
  cases kind with
  | simpleForm => exact ⟨h.spares _, h.spares _⟩
  | waitForEvent => exact ⟨h.spares _, h.spares _⟩

theorem Retains.secures (h : s.Retains) : s.Secures .waitForEvent := h

theorem Onward.secures (h : s.Onward s') (hs : s.Secures kind) : s'.Secures kind := by
  cases kind with
  | simpleForm => exact ⟨h.spares hs.1, h.spares hs.2⟩
  | waitForEvent => exact ⟨h.spares hs.1, h.spares hs.2⟩

theorem Secures.spares_local (h : s.Secures kind) : s.Spares .updateLocalState := by
  cases kind with
  | simpleForm => exact h.1
  | waitForEvent => exact h.1

end TaskStore

/-! ### Records and inquiries -/

namespace TaskRecord

/-- Nothing is submitted for the task any more.  A form was submitted, and a wait was announced or
has begun. -/
def Spent (r : TaskRecord) : Prop :=
  match r.kind with
  | .simpleForm => r.state.isTerminal = true ∨
      r.state = .inProgress ∧ r.pluginState = some FormState.awaitingReview
  | .waitForEvent => r.state ≠ .initialized ∨ r.pluginState ≠ none

theorem spent_form {r : TaskRecord} (hk : r.kind = .simpleForm) :
    r.Spent ↔ r.state.isTerminal = true ∨
      r.state = .inProgress ∧ r.pluginState = some FormState.awaitingReview := by
  rw [Spent, hk]

theorem spent_event {r : TaskRecord} (hk : r.kind = .waitForEvent) :
    r.Spent ↔ r.state ≠ .initialized ∨ r.pluginState ≠ none := by
  rw [Spent, hk]

/-- A form that is completed, or awaits a review, is spent. -/
theorem spent_moved_form {r : TaskRecord} (hk : r.kind = .simpleForm) {x : Response}
    {next : Lifecycle} (hn : x.newState = some next)
    (h : next.isTerminal = true ∨
      next = .inProgress ∧ x.extendedState = some FormState.awaitingReview) :
    (r.moved x).Spent := by
  have hmoved : (r.moved x).kind = .simpleForm := by rw [moved, hn, hk]
  rw [spent_form hmoved, moved, hn]
  refine h.imp_right fun hp => ⟨hp.1, ?_⟩
  rw [hp.2]
  rfl

/-- A wait that has begun is spent. -/
theorem spent_moved_event {r : TaskRecord} (hk : r.kind = .waitForEvent) {x : Response}
    {next : Lifecycle} (hn : x.newState = some next) (h : next ≠ .initialized) :
    (r.moved x).Spent := by
  have hmoved : (r.moved x).kind = .waitForEvent := by rw [moved, hn, hk]
  rw [spent_event hmoved, moved, hn]
  exact .inl h

/-- Other local data leaves a spent record spent. -/
theorem spent_moved_local (r : TaskRecord) (l : Context) (x : Response) :
    ({ r with localState := l }.moved x).Spent ↔ (r.moved x).Spent := by
  unfold moved
  cases x.newState <;> rfl

/-- With the record `r` to begin with agencies were asked this, and the record is `r'` then. -/
structure Discreet (s : TaskStore) (r : TaskRecord) (log : List Inquiry) (r' : TaskRecord) :
    Prop where
  short : log.length ≤ 1
  own : ∀ q ∈ log, ∀ id, q.Submits id → id = r.id ∧ ¬ r.Spent
  kept : r.Spent → r'.Spent
  spent : s.Secures r.kind → (∃ q ∈ log, q.Accepted r.id) → r'.Spent

variable {s : TaskStore} {r r' : TaskRecord} {log : List Inquiry}

/-- Nothing was submitted. -/
theorem Discreet.silent (hshort : log.length ≤ 1) (hno : ∀ q ∈ log, ∀ id, ¬ q.Submits id)
    (hkept : r.Spent → r'.Spent) : Discreet s r log r' where
  short := hshort
  own q hq id h := absurd h (hno q hq id)
  kept := hkept
  spent _ h := by
    obtain ⟨q, hq, hacc⟩ := h
    exact absurd hacc.1 (hno q hq _)

/-- Nothing was asked. -/
theorem Discreet.nil (hkept : r.Spent → r'.Spent) : Discreet s r [] r' :=
  .silent (Nat.zero_le 1) (List.forall_mem_nil _) hkept

/-- Calls to the store that came before do not matter. -/
theorem Discreet.of_onward {s₁ : TaskStore} (h : s.Onward s₁) (hd : Discreet s₁ r log r') :
    Discreet s r log r' :=
  ⟨hd.short, hd.own, hd.kept, fun hs => hd.spent (h.secures hs)⟩

/-- At most this task's own submission was made. -/
structure Modest (r : TaskRecord) (log : List Inquiry) : Prop where
  short : log.length ≤ 1
  own : ∀ q ∈ log, ∀ id, q.Submits id → id = r.id

theorem modest_nil (r : TaskRecord) : Modest r [] := ⟨Nat.zero_le 1, List.forall_mem_nil _⟩

/-- The task was not spent, and it is if the store secures it. -/
theorem Modest.discreet (h : Modest r log) (hr : ¬ r.Spent)
    (hspent : s.Secures r.kind → (∃ q ∈ log, q.Accepted r.id) → r'.Spent) :
    Discreet s r log r' where
  short := h.short
  own q hq id hsub := ⟨h.own q hq id hsub, hr⟩
  kept hs := absurd hs hr
  spent := hspent

end TaskRecord

/-! ### The work at a bench -/

namespace Bench

open TaskRecord

variable {b b₁ : Bench} {r r₁ : TaskRecord} {log : List Inquiry}

/-- The work that began with the record `r` at the bench `b` has asked this, and has come to `r'` at
`b'`.  The task has not moved. -/
structure Deals (b : Bench) (r : TaskRecord) (log : List Inquiry) (b' : Bench) (r' : TaskRecord) :
    Prop where
  here : b'.At r'
  same : r.Same r'
  state : r'.state = r.state
  onward : b.store.Onward b'.store
  heard : b.agency.Hears log b'.agency

theorem At.deals (h : b.At r) : Deals b r [] b r := ⟨h, ⟨rfl, rfl, rfl⟩, rfl, .refl _, .nil⟩

theorem Deals.called (h : Deals b r log b₁ r₁) : Deals b r log b₁.called r₁ where
  here := h.here.called
  same := h.same
  state := h.state
  onward := h.onward.trans ⟨rfl, rfl, Nat.le_succ _⟩
  heard := h.heard

theorem Deals.setLocal_ends (h : Deals b r log b₁ r₁) (key : String) (value : Json) :
    (setLocal key value).Ends b₁
      (fun _ b₂ => Deals b r log b₂ { r₁ with localState := r₁.localState.insert key value })
      fun _ b₂ => Deals b r log b₂ r₁ ∧ ¬ b.store.Spares .updateLocalState := by
  refine setLocal_goes h.here key value ?_ fun e he => ⟨h.called, h.onward.not_spares he⟩
  refine ⟨at_put _ _, ⟨h.same.id, h.same.kind, h.same.config⟩, h.state, ?_, h.heard⟩
  exact h.onward.trans ⟨rfl, rfl, Nat.le_succ _⟩

theorem Deals.setPluginState_ends (h : Deals b r log b₁ r₁) (state : String) :
    (setPluginState state).Ends b₁
      (fun _ b₂ => Deals b r log b₂ { r₁ with pluginState := some state })
      fun _ b₂ => Deals b r log b₂ r₁ ∧ ¬ b.store.Spares .updatePluginState := by
  refine setPluginState_goes h.here state ?_ fun e he => ⟨h.called, h.onward.not_spares he⟩
  refine ⟨at_put _ _, ⟨h.same.id, h.same.kind, h.same.config⟩, h.state, ?_, h.heard⟩
  exact h.onward.trans ⟨rfl, rfl, Nat.le_succ _⟩

/-- At most the task's own submission was made, and what it was answered was kept. -/
def Submitted (b : Bench) (r : TaskRecord) (b' : Bench) : Prop :=
  ∃ log r', Deals b r log b' r' ∧ Modest r log

/-- At most the task's own submission was made.  It failed, or local data could not be written. -/
def Lost (b : Bench) (r : TaskRecord) (b' : Bench) : Prop :=
  ∃ log r', Deals b r log b' r' ∧ Modest r log ∧
    (b.store.Spares .updateLocalState → ∀ q ∈ log, ¬ q.Accepted r.id)

theorem Deals.lost (h : Deals b r log b₁ r₁) (hm : Modest r log)
    (hno : ¬ b.store.Spares .updateLocalState) : Lost b r b₁ :=
  ⟨log, r₁, h, hm, fun hs => absurd hs hno⟩

theorem Lost.discreet {b' : Bench} (h : Lost b r b') (hr : ¬ r.Spent) :
    ∃ log r', Deals b r log b' r' ∧ Discreet b.store r log r' := by
  obtain ⟨log, r', hdeals, hm, hno⟩ := h
  refine ⟨log, r', hdeals, hm.discreet hr fun hs hacc => ?_⟩
  obtain ⟨q, hq, hacc⟩ := hacc
  exact absurd hacc (hno hs.spares_local q hq)

/-- A submission is made first, and then its answer is kept. -/
theorem submit_ends (h : b.At r) (ctx : CallContext) (url : String) (data : Json)
    (workflow : InstanceId) (key : String) :
    (onAgency (Agency.submit ctx url data r.id workflow)).Ends b
      (fun answer b' => (setLocal key answer).Ends b' (fun _ => Submitted b r) fun _ => Lost b r)
      fun _ => Lost b r := by
  obtain ⟨q, hq, hanswer, hown⟩ := b.agency.hears_submit ctx url data r.id workflow
  have hdeals : Deals b r [q]
      { b with agency := ((Agency.submit ctx url data r.id workflow).go b.agency).2 } r :=
    ⟨⟨h.stored, h.copied⟩, ⟨rfl, rfl, rfl⟩, rfl, .refl _, hq⟩
  have hmodest : Modest r [q] := ⟨Nat.le_refl 1, List.forall_mem_singleton.mpr hown⟩
  rw [onAgency, Act.ends_on, Act.ends_iff]
  refine ⟨fun x agency hgo => ?_, fun e agency hgo => ?_⟩
  · rw [hgo] at hdeals
    exact (hdeals.setLocal_ends key x).mono (fun _ _ h₁ => ⟨[q], _, h₁, hmodest⟩)
      fun _ _ h₁ => h₁.1.lost hmodest h₁.2
  · rw [hgo] at hdeals hanswer
    refine ⟨[q], r, hdeals, hmodest, fun _ => List.forall_mem_singleton.mpr fun hacc => ?_⟩
    rw [Inquiry.Accepted, hanswer] at hacc
    cases hacc.2

/-- The logic asks discreetly.  That the move it asks for may fail is of account only where the
store fails to move a task. -/
def Inquires (b : Bench) (r : TaskRecord) (logic : Act Bench Response) : Prop :=
  logic.Ends b
    (fun x b' => ∃ log r', Deals b r log b' r' ∧ Discreet b.store r log (r'.moved x) ∧
      (¬ b.store.Spares .updateState → Discreet b.store r log r'))
    fun _ b' => ∃ log r', Deals b r log b' r' ∧ Discreet b.store r log r'

/-- What was done at a bench was asked discreetly. -/
def Discreetly (b : Bench) (r : TaskRecord) (b' : Bench) : Prop :=
  ∃ log r', b'.At r' ∧ r.Same r' ∧ b.agency.Hears log b'.agency ∧ Discreet b.store r log r'

theorem Deals.discreetly (h : Deals b r log b₁ r₁) (hd : Discreet b.store r log r₁) :
    Discreetly b r b₁ :=
  ⟨log, r₁, h.here, h.same, h.heard, hd⟩

theorem At.discreetly (h : b.At r) : Discreetly b r b := h.deals.discreetly (.nil fun hs => hs)

theorem Deals.settle_ends (h : Deals b r log b₁ r₁) (ht : r.state.isTerminal = false)
    {x : Response} (hx : x.Onward) (hd : Discreet b.store r log (r₁.moved x))
    (hd' : ¬ b.store.Spares .updateState → Discreet b.store r log r₁) :
    (settle x).Ends b₁ (fun _ => Discreetly b r) fun _ => Discreetly b r := by
  simp only [settle]
  rw [TaskRecord.moved] at hd
  cases hn : x.newState with
  | none =>
      rw [hn] at hd
      exact h.discreetly hd
  | some next =>
      rw [hn] at hd
      have hmove := Lifecycle.canMoveTo_of_unfinished (h.state ▸ ht) (hx.ne hn)
      rw [Act.ends_bind]
      refine move_goes h.here next x.extendedState (fun _ => ?_) (fun hno => ?_) fun e he => ?_
      · exact ⟨log, _, at_put _ _, ⟨h.same.id, h.same.kind, h.same.config⟩, h.heard, hd⟩
      · cases hmove.symm.trans hno
      · exact h.called.discreetly (hd' (h.onward.not_spares he))

section Work

variable {logic : Act Bench Response}

theorem Inquires.settle (ht : r.state.isTerminal = false) (hl : Inquires b r logic)
    (hlawful : logic.Lawful Response.Onward) :
    (logic >>= settle).Ends b (fun _ => Discreetly b r) fun _ => Discreetly b r := by
  rw [Act.ends_bind]
  refine (Act.Ends.and hl (hlawful b)).mono (fun x b₁ k => ?_) fun _ b₁ k => ?_
  · obtain ⟨⟨log, r₁, hdeals, hd, hd'⟩, hx⟩ := k
    exact hdeals.settle_ends ht hx hd hd'
  · obtain ⟨⟨log, r₁, hdeals, hd⟩, -⟩ := k
    exact hdeals.discreetly hd

theorem startBy_discreet (h : b.At r) (hl : r.state.isTerminal = false → Inquires b r logic)
    (hlawful : logic.Lawful Response.Onward) :
    (startBy logic).Ends b (fun _ => Discreetly b r) fun _ => Discreetly b r := by
  simp only [startBy]
  rw [h.handleNow_bind]
  split
  · exact h.discreetly
  · rename_i ht
    exact (hl (Bool.eq_false_iff.mpr ht)).settle (Bool.eq_false_iff.mpr ht) hlawful

theorem executeBy_discreet (h : b.At r) (hl : r.state.isTerminal = false → Inquires b r logic)
    (hlawful : logic.Lawful Response.Onward) :
    (executeBy logic).Ends b (fun _ => Discreetly b r) fun _ => Discreetly b r := by
  simp only [executeBy]
  rw [h.handleNow_bind]
  split
  · exact h.discreetly
  · rename_i ht
    exact (hl (Bool.eq_false_iff.mpr ht)).settle (Bool.eq_false_iff.mpr ht) hlawful

end Work

/-- Nothing is asked, and a spent record stays spent. -/
theorem At.quiet (h : b.At r) {x : Response} (hx : r.Spent → (r.moved x).Spent) :
    ∃ log r', Deals b r log b r' ∧ Discreet b.store r log (r'.moved x) ∧
      (¬ b.store.Spares .updateState → Discreet b.store r log r') :=
  ⟨[], r, h.deals, .nil hx, fun _ => .nil fun hs => hs⟩

/-- Nothing is asked, and the logic fails. -/
theorem At.quiet_fail (h : b.At r) : ∃ log r', Deals b r log b r' ∧ Discreet b.store r log r' :=
  ⟨[], r, h.deals, .nil fun hs => hs⟩

/-- Logic that asks nothing, but only keeps a value under a key. -/
theorem At.keeping_inquires (h : b.At r) (key : String) (value : Json) {x : Response}
    (hx : r.Spent → (r.moved x).Spent) :
    Inquires b r (setLocal key value >>= fun _ => pure x) := by
  rw [Inquires, Act.ends_bind]
  refine (h.deals.setLocal_ends key value).mono (fun _ b₁ h₁ => ?_) fun _ b₁ h₁ => ?_
  · refine ⟨[], _, h₁, .nil fun hs => ?_, fun _ => .nil fun hs => hs⟩
    exact (spent_moved_local r _ x).mpr (hx hs)
  · exact ⟨[], r, h₁.1, .nil fun hs => hs⟩

end Bench

/-! ### The logic of forms -/

namespace FormConfig

open Bench TaskRecord

variable {b : Bench} {r : TaskRecord}

theorem start_inquires (h : b.At r) (hk : r.kind = .simpleForm) : Inquires b r start := by
  simp only [Inquires, start]
  rw [h.handleNow_bind]
  split
  · rename_i hs
    have hs : r.state = .initialized := hs
    refine h.quiet fun hspent => ?_
    -- a form that is not open yet cannot have been submitted
    rw [spent_form hk, hs] at hspent
    simp [Lifecycle.isTerminal] at hspent
  · exact h.quiet fun hspent => hspent

theorem saveDraft_inquires (h : b.At r) (content : Json) : Inquires b r (saveDraft content) := by
  simp only [Inquires, saveDraft]
  rw [Act.ends_bind, Act.ends_lift]
  cases objectContent content with
  | error _ => exact h.quiet_fail
  | ok draft => exact h.keeping_inquires "draft" draft fun hspent => hspent

theorem forward_ends (h : b.At r) (c : FormConfig) (ctx : CallContext) (data : Json) :
    (c.forward ctx data).Ends b (fun _ => Submitted b r) fun _ => Lost b r := by
  simp only [forward]
  cases c.submissionUrl with
  | none => exact ⟨[], r, h.deals, modest_nil r⟩
  | some url =>
      dsimp only
      rw [h.handleNow_bind]
      simp only [Act.ends_bind, Act.ends_pure]
      exact submit_ends h ctx url data _ "submissionResponse"

theorem spent_submissionResponse (hk : r.kind = .simpleForm) (c : FormConfig) (data : Json)
    (reply : Option Json) : (r.moved (c.submissionResponse data reply)).Spent := by
  unfold submissionResponse
  cases c.requiresReview with
  | true => exact spent_moved_form hk rfl (.inr ⟨rfl, rfl⟩)
  | false => exact spent_moved_form hk rfl (.inl rfl)

/-- A submission is taken from a form that is not spent, which it is once the move is carried out.
Until then only the store can fail. -/
theorem submit_inquires (h : b.At r) (hk : r.kind = .simpleForm)
    (ht : r.state.isTerminal = false) (c : FormConfig) (ctx : CallContext) (content : Json) :
    Inquires b r (c.submit ctx content) := by
  simp only [Inquires, submit]
  rw [h.handleNow_bind]
  split
  · exact h.quiet_fail
  rename_i hno
  have hspent : ¬ r.Spent := by
    rw [spent_form hk, ht]
    rintro (hend | ⟨-, hp⟩)
    · cases hend
    · exact hno (.inl hp)
  rw [Act.ends_bind, Act.ends_lift]
  cases objectContent content with
  | error _ => exact h.quiet_fail
  | ok data =>
      dsimp only
      rw [Act.ends_bind]
      refine (forward_ends h c ctx data).mono (fun reply b₁ k => ?_) fun _ _ k => k.discreet hspent
      obtain ⟨log, r₁, h₁, hm⟩ := k
      rw [Act.ends_bind]
      refine (h₁.setLocal_ends "submission" data).mono (fun _ b₂ h₂ => ?_)
        fun _ _ h₂ => (h₂.1.lost hm h₂.2).discreet hspent
      refine ⟨log, _, h₂, hm.discreet hspent fun _ _ => ?_, fun hfails => ?_⟩
      · exact spent_submissionResponse (h₂.same.kind.trans hk) c data reply
      · refine hm.discreet hspent fun hs _ => absurd ?_ hfails
        rw [hk] at hs
        exact hs.2

theorem completeReview_inquires (h : b.At r) (hk : r.kind = .simpleForm) (c : FormConfig)
    (content : Json) : Inquires b r (c.completeReview content) := by
  simp only [Inquires, completeReview]
  rw [h.handleNow_bind]
  split
  · exact h.quiet_fail
  split
  · exact h.quiet_fail
  · exact h.keeping_inquires "review" content fun _ => spent_moved_form hk rfl (.inl rfl)

theorem execute_inquires (h : b.At r) (hk : r.kind = .simpleForm)
    (ht : r.state.isTerminal = false) (c : FormConfig) (ctx : CallContext) (q : ActionRequest) :
    Inquires b r (c.execute ctx q) := by
  simp only [execute]
  split
  · exact saveDraft_inquires h q.content
  · exact submit_inquires h hk ht c ctx q.content
  · exact completeReview_inquires h hk c q.content
  · exact h.quiet_fail

/-- The form may be fetched, which submits nothing. -/
theorem render_discreet (h : b.At r) (c : FormConfig) (ctx : CallContext) :
    (c.render ctx).Ends b (fun _ => Discreetly b r) fun _ => Discreetly b r := by
  have hfetched : ∀ url fetched, Discreetly b r
      { b with fetched := fetched, agency := ((Agency.fetch ctx url).go b.agency).2 } := by
    intro url fetched
    obtain ⟨q, hq, hno⟩ := b.agency.hears_fetch ctx url
    refine ⟨[q], r, ⟨h.stored, h.copied⟩, ⟨rfl, rfl, rfl⟩, hq, ?_⟩
    exact .silent (Nat.le_refl 1) (List.forall_mem_singleton.mpr hno) fun hs => hs
  rw [render, Act.ends_bind, form]
  split
  · exact h.discreetly
  · exact h.discreetly
  · rename_i url _ _
    rw [Act.ends_bind, Act.ends_get]
    split
    · exact h.discreetly
    · rw [Act.ends_bind, onAgency, Act.ends_on, Act.ends_iff]
      refine ⟨fun form agency hgo => ?_, fun _ agency hgo => ?_⟩
      · have hdone := hfetched url (some form)
        rw [hgo] at hdone
        exact hdone
      · have hdone := hfetched url b.fetched
        rw [hgo] at hdone
        exact hdone

end FormConfig

/-! ### The logic of events -/

namespace EventConfig

open Bench TaskRecord

variable {b : Bench} {r : TaskRecord}

theorem announce_ends (h : b.At r) (c : EventConfig) (ctx : CallContext) :
    (c.announce ctx).Ends b (fun _ => Submitted b r) fun _ => Lost b r := by
  simp only [announce]
  cases c.notifyUrl with
  | none => exact ⟨[], r, h.deals, modest_nil r⟩
  | some url =>
      dsimp only
      rw [h.handleNow_bind, Act.ends_bind]
      exact submit_ends h ctx url _ _ "notifyResponse"

/-- The service is told of a wait that is not spent, which it is as soon as its plugin state is
written.  Whether it then moves does not matter. -/
theorem start_inquires (h : b.At r) (hk : r.kind = .waitForEvent) (c : EventConfig)
    (ctx : CallContext) : Inquires b r (c.start ctx) := by
  simp only [Inquires, start]
  rw [h.handleNow_bind]
  split
  · exact h.quiet fun hspent => hspent
  rename_i hs
  have hs : r.state = .initialized := not_not.mp hs
  split
  · rename_i hp
    have hspent : ¬ r.Spent := by
      rw [spent_event hk]
      rintro (hmoved | hkept)
      · exact hmoved hs
      · exact hkept (Option.isNone_iff_eq_none.mp hp)
    rw [Act.ends_bind]
    refine (announce_ends h c ctx).mono (fun _ b₁ k => ?_) fun _ _ k => k.discreet hspent
    obtain ⟨log, r₁, h₁, hm⟩ := k
    rw [Act.ends_bind]
    refine (h₁.setPluginState_ends EventState.waiting).mono (fun _ b₂ h₂ => ?_) fun _ b₂ h₂ => ?_
    · have hkind := h₂.same.kind.trans hk
      refine ⟨log, _, h₂, hm.discreet hspent fun _ _ => ?_, fun _ =>
        hm.discreet hspent fun _ _ => ?_⟩
      · exact spent_moved_event hkind rfl (by decide)
      · exact (spent_event hkind).mpr (.inr (Option.some_ne_none _))
    · refine ⟨log, r₁, h₂.1, hm.discreet hspent fun hs _ => absurd ?_ h₂.2⟩
      rw [hk] at hs
      exact hs.2
  · exact h.quiet fun _ => spent_moved_event hk rfl (by decide)

theorem execute_inquires (h : b.At r) (hk : r.kind = .waitForEvent) (c : EventConfig)
    (q : ActionRequest) : Inquires b r (c.execute q) := by
  simp only [execute]
  split
  · simp only [Inquires, receive]
    rw [Act.ends_bind, Act.ends_lift]
    cases objectContent q.content with
    | error _ => exact h.quiet_fail
    | ok content =>
        dsimp only
        split
        · exact h.quiet_fail
        · exact h.keeping_inquires "event" content fun _ =>
            spent_moved_event hk rfl (by decide)
  · exact h.keeping_inquires "failure" q.content fun _ =>
      spent_moved_event hk rfl (by decide)
  · exact h.quiet_fail

end EventConfig

/-! ### The plugins -/

namespace Plugin

open Bench

variable {b : Bench} {r : TaskRecord} {p : Plugin}

theorem start_discreet (h : b.At r) (hk : p.kind = r.kind) (ctx : CallContext) :
    (startBy (p.start ctx)).Ends b (fun _ => Discreetly b r) fun _ => Discreetly b r := by
  refine startBy_discreet h (fun _ => ?_) (p.start_lawful ctx)
  cases p with
  | form c => exact FormConfig.start_inquires h hk.symm
  | event c => exact EventConfig.start_inquires h hk.symm c ctx

theorem execute_discreet (h : b.At r) (hk : p.kind = r.kind) (ctx : CallContext)
    (q : ActionRequest) :
    (executeBy (p.execute ctx q)).Ends b (fun _ => Discreetly b r) fun _ => Discreetly b r := by
  refine executeBy_discreet h (fun ht => ?_) (p.execute_lawful ctx q)
  cases p with
  | form c => exact FormConfig.execute_inquires h hk.symm ht c ctx q
  | event c => exact EventConfig.execute_inquires h hk.symm c q

theorem render_discreet (h : b.At r) (p : Plugin) (ctx : CallContext) :
    (p.render ctx).Ends b (fun _ => Discreetly b r) fun _ => Discreetly b r := by
  cases p with
  | form c => exact FormConfig.render_discreet h c ctx
  | event _ => exact h.discreetly

end Plugin

end Clearance
