import Clearance.Proofs.Act
import Clearance.Task.Plugin

/-!
# Clearance — Proofs — Task — What a plugin does at its bench

A plugin changes the one record its handle is a copy of, and handle and record stay equal whatever
call to the store fails (`Bench.At`).

* `Bench.Works`: what the logic of a plugin may do by itself.  It leaves every other record alone,
  and of its own record it changes the local data, and before the task has moved the plugin state.
* `Plugin.start_works`, `Plugin.execute_works`, `Plugin.render_works`: the built-in plugins do no
  more than that, and a response that asks for a move names the plugin state to move to.
* `Bench.Settled`: what the move that a response asks for adds to it.
-/

namespace Clearance

/-! ### Handles and records -/

/-- `r'` is `r` with other local data, and another plugin state if the task has not moved yet. -/
def TaskRecord.Drafts (r r' : TaskRecord) : Prop :=
  ∃ l p, r' = { r with localState := l, pluginState := p } ∧
    (r.state ≠ .initialized → p = r.pluginState)

theorem TaskRecord.Drafts.refl (r : TaskRecord) : r.Drafts r := ⟨_, _, rfl, fun _ => rfl⟩

theorem TaskRecord.Drafts.trans {r r₁ r₂ : TaskRecord} (h₁ : r.Drafts r₁) (h₂ : r₁.Drafts r₂) :
    r.Drafts r₂ := by
  obtain ⟨l₁, p₁, rfl, k₁⟩ := h₁
  obtain ⟨l₂, p₂, rfl, k₂⟩ := h₂
  exact ⟨l₂, p₂, rfl, fun h => (k₂ h).trans (k₁ h)⟩

theorem TaskRecord.Drafts.id_eq {r r' : TaskRecord} (h : r.Drafts r') : r'.id = r.id := by
  obtain ⟨_, _, rfl, -⟩ := h
  rfl

theorem TaskRecord.Drafts.state_eq {r r' : TaskRecord} (h : r.Drafts r') : r'.state = r.state := by
  obtain ⟨_, _, rfl, -⟩ := h
  rfl

namespace Bench

/-- The handle is a copy of `r`, which is the record in the store. -/
structure At (b : Bench) (r : TaskRecord) : Prop where
  stored : b.store.records.get? r.id = some r
  copied : b.handle = .ofRecord r

theorem At.unique {b : Bench} {r r' : TaskRecord} (h : b.At r) (h' : b.At r') : r = r' := by
  have hid : r.id = r'.id := congrArg Handle.nodeId (h.copied.symm.trans h'.copied)
  exact Option.some.inj (h.stored.symm.trans (hid ▸ h'.stored))

/-- What a plugin's logic may do: its record stays drafted and every other one as it is. -/
def Works (b b' : Bench) : Prop :=
  ∃ r r', b.At r ∧ b'.At r' ∧ r.Drafts r' ∧
    ∀ id, id ≠ r.id → b'.store.records.get? id = b.store.records.get? id

theorem At.works {b : Bench} {r : TaskRecord} (h : b.At r) : Works b b :=
  ⟨r, r, h, h, .refl r, fun _ _ => rfl⟩

theorem Works.trans {b b₁ b₂ : Bench} (h₁ : Works b b₁) (h₂ : Works b₁ b₂) : Works b b₂ := by
  obtain ⟨r, r₁, hr, hr₁, d₁, e₁⟩ := h₁
  obtain ⟨r₁', r₂, hr₁', hr₂, d₂, e₂⟩ := h₂
  obtain rfl := hr₁.unique hr₁'
  exact ⟨r, r₂, hr, hr₂, d₁.trans d₂, fun id h => (e₂ id (d₁.id_eq ▸ h)).trans (e₁ id h)⟩

/-- Handle and records are as they were, as after a call to the outside. -/
structure Still (b b' : Bench) : Prop where
  handle : b'.handle = b.handle
  records : b'.store.records = b.store.records

theorem Still.refl (b : Bench) : Still b b := ⟨rfl, rfl⟩

theorem At.still {b b' : Bench} {r : TaskRecord} (h : b.At r) (k : Still b b') : b'.At r :=
  ⟨k.records ▸ h.stored, k.handle.trans h.copied⟩

theorem At.works_of_still {b b' : Bench} {r : TaskRecord} (h : b.At r) (k : Still b b') :
    Works b b' :=
  ⟨r, r, h, h.still k, .refl r, fun id _ => congrArg (·.get? id) k.records⟩

/-! ### Writes -/

end Bench

namespace TaskStore

variable {s : TaskStore} {fail : Failure → TaskStore → Prop}

/-- Every call answers. -/
def Up (s : TaskStore) : Prop := s.available = true ∧ s.faults = .none

/-- The store after a call that wrote nothing. -/
def called (s : TaskStore) : TaskStore := { s with calls := s.calls + 1 }

/-- How the call with the number `k` fails if it is of this method, if it does. -/
def failure? (s : TaskStore) (k : Nat) (m : Method) : Option Failure :=
  if s.faults k m then some (.storeFault m.text)
  else if s.available then none
  else some .storeUnavailable

/-- The next call may fail so. -/
def Refuses (s : TaskStore) (e : Failure) : Prop := ∃ m, s.failure? s.calls m = some e

theorem Up.failure?_eq_none (h : s.Up) (k : Nat) (m : Method) : s.failure? k m = none := by
  rw [failure?, h.1, h.2]
  rfl

theorem Up.not_refuses {e : Failure} (h : s.Up) : ¬ s.Refuses e := by
  rintro ⟨m, hm⟩
  exact nomatch (h.failure?_eq_none _ m).symm.trans hm

/-- `s'` is left by calls to `s`, which fail by the plan of `s`. -/
structure Onward (s s' : TaskStore) : Prop where
  available : s'.available = s.available
  faults : s'.faults = s.faults
  calls : s.calls ≤ s'.calls

theorem Onward.refl (s : TaskStore) : s.Onward s := ⟨rfl, rfl, Nat.le_refl _⟩

theorem Onward.trans {s s₁ s₂ : TaskStore} (h₁ : s.Onward s₁) (h₂ : s₁.Onward s₂) : s.Onward s₂ :=
  ⟨h₂.available.trans h₁.available, h₂.faults.trans h₁.faults,
    Nat.le_trans h₁.calls h₂.calls⟩

theorem Onward.up {s s' : TaskStore} (h : s.Onward s') (hup : s.Up) : s'.Up :=
  ⟨h.available.trans hup.1, h.faults.trans hup.2⟩

/-- The last of the calls that lead from `s` to `s'` failed so. -/
def FailedBy (s s' : TaskStore) (e : Failure) : Prop :=
  ∃ k m, s.calls ≤ k ∧ s'.calls = k + 1 ∧ s.failure? k m = some e

theorem Refuses.failedBy {e : Failure} (h : s.Refuses e) : s.FailedBy s.called e := by
  obtain ⟨m, hm⟩ := h
  exact ⟨s.calls, m, Nat.le_refl _, rfl, hm⟩

/-- Calls before the one that failed do not matter to it. -/
theorem Onward.failedBy {s s₁ s' : TaskStore} {e : Failure} (h : s.Onward s₁)
    (hf : s₁.FailedBy s' e) : s.FailedBy s' e := by
  obtain ⟨k, m, hk, hcalls, hm⟩ := hf
  refine ⟨k, m, Nat.le_trans h.calls hk, hcalls, ?_⟩
  rw [failure?, h.faults, h.available] at hm
  exact hm

theorem Up.not_failedBy {s' : TaskStore} {e : Failure} (h : s.Up) : ¬ s.FailedBy s' e := by
  rintro ⟨k, m, -, -, hm⟩
  exact nomatch (h.failure?_eq_none k m).symm.trans hm

/-- A call fails as the plan has it for its number and its method, and does nothing by itself. -/
theorem enter_goes {m : Method} {ok : Unit → TaskStore → Prop} (hok : ok () s.called)
    (hfail : ∀ e, s.failure? s.calls m = some e → fail e s.called) :
    (enter m).Ends s ok fail := by
  rw [enter, Act.ends_of]
  by_cases hf : s.faults s.calls m = true
  · rw [if_pos hf]
    exact hfail _ (if_pos hf)
  rw [if_neg hf]
  by_cases ha : s.available = true
  · rw [if_pos ha]
    exact hok
  · rw [if_neg ha]
    exact hfail _ ((if_neg hf).trans (if_neg ha))

theorem enter_ends {m : Method} {ok : Unit → TaskStore → Prop} (hok : ok () s.called)
    (hfail : ∀ e, s.Refuses e → fail e s.called) : (enter m).Ends s ok fail :=
  enter_goes hok fun e he => hfail e ⟨m, he⟩

/-- A call that changes a record that is there fails and writes nothing, or does so. -/
theorem write_goes {m : Method} {id : NodeId} {f : TaskRecord → TaskRecord} {r : TaskRecord}
    {ok : Unit → TaskStore → Prop} (hr : s.records.get? id = some r)
    (hok : ok () { s.called with records := s.records.insert id (f r) })
    (hfail : ∀ e, s.failure? s.calls m = some e → fail e s.called) :
    (do enter m; modify id f : Act TaskStore Unit).Ends s ok fail := by
  rw [Act.ends_bind]
  refine enter_goes ?_ hfail
  have hr' : s.called.records.get? id = some r := hr
  rw [modify, Act.ends_of, hr']
  exact hok

end TaskStore

namespace Bench

/-- A bench after a call to the store that failed. -/
def called (b : Bench) : Bench := { b with store := b.store.called }

/-- A bench after a call to the store that wrote `r`, with the handle a copy of it. -/
def put (b : Bench) (r : TaskRecord) : Bench :=
  { b with
    handle := .ofRecord r
    store := { b.store.called with records := b.store.records.insert r.id r } }

theorem at_put (b : Bench) (r : TaskRecord) : (b.put r).At r := ⟨Table.get?_insert_self _ _ _, rfl⟩

theorem At.works_called {b : Bench} {r : TaskRecord} (h : b.At r) : Works b b.called :=
  h.works_of_still ⟨rfl, rfl⟩

theorem At.works_put {b : Bench} {r r' : TaskRecord} (h : b.At r) (hd : r.Drafts r') :
    Works b (b.put r') :=
  ⟨r, r', h, at_put b r', hd, fun _ hne => Table.get?_insert_ne _ _ (hd.id_eq ▸ hne)⟩

section Writes

variable {b : Bench} {r : TaskRecord} {ok : Unit → Bench → Prop} {fail : Failure → Bench → Prop}

/-- The call that writes a key of the local data fails, or does so. -/
theorem setLocal_goes (h : b.At r) (key : String) (value : Json)
    (hok : ok () (b.put { r with localState := r.localState.insert key value }))
    (hfail : ∀ e, b.store.failure? b.store.calls .updateLocalState = some e → fail e b.called) :
    (setLocal key value).Ends b ok fail := by
  obtain ⟨handle, fetched, store, agency⟩ := b
  obtain rfl : handle = .ofRecord r := h.copied
  simp only [setLocal, handleNow, onStore, setHandle, Act.ends_bind, Act.ends_of, Act.ends_on]
  exact TaskStore.write_goes h.stored hok hfail

theorem setLocal_ends (h : b.At r) (key : String) (value : Json)
    (hok : ok () (b.put { r with localState := r.localState.insert key value }))
    (hfail : ∀ e, b.store.Refuses e → fail e b.called) : (setLocal key value).Ends b ok fail :=
  setLocal_goes h key value hok fun e he => hfail e ⟨_, he⟩

/-- The call that writes a plugin state fails, or does so. -/
theorem setPluginState_goes (h : b.At r) (state : String)
    (hok : ok () (b.put { r with pluginState := some state }))
    (hfail : ∀ e, b.store.failure? b.store.calls .updatePluginState = some e → fail e b.called) :
    (setPluginState state).Ends b ok fail := by
  obtain ⟨handle, fetched, store, agency⟩ := b
  obtain rfl : handle = .ofRecord r := h.copied
  simp only [setPluginState, handleNow, onStore, setHandle, Act.ends_bind, Act.ends_of,
    Act.ends_on]
  exact TaskStore.write_goes h.stored hok hfail

theorem setPluginState_ends (h : b.At r) (state : String)
    (hok : ok () (b.put { r with pluginState := some state }))
    (hfail : ∀ e, b.store.Refuses e → fail e b.called) :
    (setPluginState state).Ends b ok fail :=
  setPluginState_goes h state hok fun e he => hfail e ⟨_, he⟩

/-- A move is refused if it is not legal.  If it is, the call that writes it fails, or does so. -/
theorem move_goes (h : b.At r) (next : Lifecycle) (state : Option String)
    (hok : r.state.canMoveTo next →
      ok () (b.put { r with state := next, pluginState := state.or r.pluginState }))
    (hillegal : r.state.canMoveTo next = false → fail (.illegalMove r.id r.state next) b)
    (hfail : ∀ e, b.store.failure? b.store.calls .updateState = some e → fail e b.called) :
    (move next state).Ends b ok fail := by
  obtain ⟨handle, fetched, store, agency⟩ := b
  obtain rfl : handle = .ofRecord r := h.copied
  simp only [move, handleNow, onStore, setHandle, Act.ends_bind, Act.ends_of, Act.ends_on,
    Act.ends_ite]
  split
  · rename_i hno
    exact hillegal (by simpa [Handle.ofRecord] using hno)
  · rename_i hyes
    exact TaskStore.write_goes h.stored (hok (by simpa [Handle.ofRecord] using hyes)) hfail

theorem move_ends (h : b.At r) (next : Lifecycle) (state : Option String)
    (hok : r.state.canMoveTo next →
      ok () (b.put { r with state := next, pluginState := state.or r.pluginState }))
    (hillegal : r.state.canMoveTo next = false → fail (.illegalMove r.id r.state next) b)
    (hfail : ∀ e, b.store.Refuses e → fail e b.called) : (move next state).Ends b ok fail :=
  move_goes h next state hok hillegal fun e he => hfail e ⟨_, he⟩

end Writes

/-! ### The logic of the plugins -/

section Logic

variable {b : Bench} {r : TaskRecord}

theorem setLocal_works (h : b.At r) (key : String) (value : Json) :
    (setLocal key value).Within Works (fun _ _ => True) b :=
  setLocal_ends h key value ⟨h.works_put ⟨_, _, rfl, fun _ => rfl⟩, trivial⟩
    fun _ _ => h.works_called

theorem setPluginState_works (h : b.At r) (hr : r.state = .initialized) (state : String) :
    (setPluginState state).Within Works (fun _ _ => True) b :=
  setPluginState_ends h state ⟨h.works_put ⟨_, _, rfl, fun hne => absurd hr hne⟩, trivial⟩
    fun _ _ => h.works_called

theorem onAgency_still {α : Type} (b : Bench) (a : Act Agency α) :
    (onAgency a).Ends b (fun _ => Still b) fun _ => Still b := by
  rw [onAgency, Act.ends_on]
  exact Act.ends_state.mpr ⟨rfl, rfl⟩

theorem onAgency_works {α : Type} (h : b.At r) (a : Act Agency α) :
    (onAgency a).Within Works (fun _ _ => True) b :=
  (onAgency_still b a).mono (fun _ _ k => ⟨h.works_of_still k, trivial⟩)
    fun _ _ k => h.works_of_still k

/-- A step that works at the bench, and then steps that work at the bench it leaves. -/
theorem At.bind_works {α β : Type} {V : β → Bench → Prop} {a : Act Bench α} {f : α → Act Bench β}
    (h : b.At r) (ha : a.Within Works (fun _ _ => True) b)
    (hf : ∀ x b₁ r₁, b₁.At r₁ → r.Drafts r₁ → (f x).Within Works V b₁) :
    (a >>= f).Within Works V b := by
  refine .bind Works.trans ha fun x b₁ w _ => ?_
  obtain ⟨r', r₁, hr', hr₁, hd, -⟩ := w
  obtain rfl := h.unique hr'
  exact hf x b₁ r₁ hr₁ hd

theorem At.lift_works {α β : Type} {V : β → Bench → Prop} {e : Except Failure α}
    {f : α → Act Bench β} (h : b.At r) (hf : ∀ x, e = .ok x → (f x).Within Works V b) :
    (Act.lift e >>= f).Within Works V b := by
  rw [Act.Within, Act.ends_bind, Act.ends_lift]
  cases e with
  | error e => exact h.works
  | ok x => exact hf x rfl

theorem handleNow_within {α : Type} {R : Bench → Bench → Prop} {V : α → Bench → Prop}
    {f : Handle → Act Bench α} (h : (f b.handle).Within R V b) :
    (handleNow >>= f).Within R V b := by
  unfold Act.Within at *
  rw [Act.ends_bind]
  exact h

end Logic

end Bench

/-- A response that asks for a move names the plugin state to move to. -/
def Response.Placed (r : Response) : Prop :=
  r.newState = none ∨ ∃ next x, r.newState = some next ∧ r.extendedState = some x

namespace FormConfig

open Bench

variable {b : Bench} {r : TaskRecord}

theorem start_works (h : b.At r) : start.Within Works (fun x _ => x.Placed) b := by
  refine handleNow_within ?_
  split
  · exact .of_pure h.works (.inr ⟨_, _, rfl, rfl⟩)
  · exact .of_pure h.works (.inl rfl)

theorem saveDraft_works (h : b.At r) (content : Json) :
    (saveDraft content).Within Works (fun x _ => x.Placed) b :=
  h.lift_works fun _ _ => h.bind_works (setLocal_works h _ _) fun _ _ _ h₁ _ =>
    .of_pure h₁.works (.inl rfl)

theorem forward_works (h : b.At r) (c : FormConfig) (ctx : CallContext) (data : Json) :
    (c.forward ctx data).Within Works (fun _ _ => True) b := by
  unfold forward
  cases c.submissionUrl with
  | none => exact .of_pure h.works trivial
  | some url =>
      refine handleNow_within (h.bind_works (onAgency_works h _) fun reply _ _ h₁ _ => ?_)
      exact h₁.bind_works (setLocal_works h₁ _ _) fun _ _ _ h₂ _ => .of_pure h₂.works trivial

theorem placed_submissionResponse (c : FormConfig) (data : Json) (reply : Option Json) :
    (c.submissionResponse data reply).Placed := by
  unfold submissionResponse
  cases c.requiresReview <;> exact .inr ⟨_, _, rfl, rfl⟩

theorem submit_works (h : b.At r) (c : FormConfig) (ctx : CallContext) (content : Json) :
    (c.submit ctx content).Within Works (fun x _ => x.Placed) b := by
  refine handleNow_within ?_
  split
  · exact h.works
  · refine h.lift_works fun data _ => ?_
    refine h.bind_works (forward_works h c ctx data) fun reply _ _ h₁ _ => ?_
    exact h₁.bind_works (setLocal_works h₁ _ _) fun _ _ _ h₂ _ =>
      .of_pure h₂.works (placed_submissionResponse c data reply)

theorem completeReview_works (h : b.At r) (c : FormConfig) (content : Json) :
    (c.completeReview content).Within Works (fun x _ => x.Placed) b := by
  refine handleNow_within ?_
  dsimp only
  split
  · exact h.works
  · split
    · exact h.works
    · exact h.bind_works (setLocal_works h _ _) fun _ _ _ h₁ _ =>
        .of_pure h₁.works (.inr ⟨_, _, rfl, rfl⟩)

theorem execute_works (h : b.At r) (c : FormConfig) (ctx : CallContext) (q : ActionRequest) :
    (c.execute ctx q).Within Works (fun x _ => x.Placed) b := by
  unfold execute
  split
  · exact saveDraft_works h q.content
  · exact submit_works h c ctx q.content
  · exact completeReview_works h c q.content
  · exact h.works

/-- The form is given, or it is fetched and only kept at the bench. -/
theorem form_still (b : Bench) (c : FormConfig) (ctx : CallContext) :
    (c.form ctx).Ends b (fun _ => Still b) fun _ => Still b := by
  unfold form
  split
  · exact .refl b
  · exact .refl b
  · simp only [Act.ends_bind, Act.ends_get]
    split
    · exact .refl b
    · rw [Act.ends_bind]
      exact (onAgency_still b _).mono (fun _ _ h => ⟨h.handle, h.records⟩) fun _ _ h => h

theorem render_still (b : Bench) (c : FormConfig) (ctx : CallContext) :
    (c.render ctx).Ends b (fun _ => Still b) fun _ => Still b := by
  rw [render, Act.ends_bind]
  exact form_still b c ctx

end FormConfig

namespace EventConfig

open Bench

variable {b : Bench} {r : TaskRecord}

theorem announce_works (h : b.At r) (c : EventConfig) (ctx : CallContext) :
    (c.announce ctx).Within Works (fun _ _ => True) b := by
  unfold announce
  cases c.notifyUrl with
  | none => exact .of_pure h.works trivial
  | some url =>
      exact handleNow_within (h.bind_works (onAgency_works h _) fun _ _ _ h₁ _ =>
        setLocal_works h₁ _ _)

theorem start_works (h : b.At r) (c : EventConfig) (ctx : CallContext) :
    (c.start ctx).Within Works (fun x _ => x.Placed) b := by
  refine handleNow_within ?_
  split
  · exact .of_pure h.works (.inl rfl)
  · rename_i hst
    have hr : r.state = .initialized := by simpa [h.copied, Handle.ofRecord] using hst
    dsimp only
    split
    · refine h.bind_works (announce_works h c ctx) fun _ _ _ h₁ hd => ?_
      -- the announcement moved nothing, so the plugin state may still be set
      have hr₁ : _ = Lifecycle.initialized := hd.state_eq.trans hr
      exact h₁.bind_works (setPluginState_works h₁ hr₁ _) fun _ _ _ h₂ _ =>
        .of_pure h₂.works (.inr ⟨_, _, rfl, rfl⟩)
    · exact .of_pure h.works (.inr ⟨_, _, rfl, rfl⟩)

theorem receive_works (h : b.At r) (c : EventConfig) (content : Json) :
    (c.receive content).Within Works (fun x _ => x.Placed) b := by
  refine h.lift_works fun content _ => ?_
  dsimp only
  split
  · exact h.works
  · exact h.bind_works (setLocal_works h _ _) fun _ _ _ h₁ _ =>
      .of_pure h₁.works (.inr ⟨_, _, rfl, rfl⟩)

theorem giveUp_works (h : b.At r) (content : Json) :
    (giveUp content).Within Works (fun x _ => x.Placed) b :=
  h.bind_works (setLocal_works h _ _) fun _ _ _ h₁ _ => .of_pure h₁.works (.inr ⟨_, _, rfl, rfl⟩)

theorem execute_works (h : b.At r) (c : EventConfig) (q : ActionRequest) :
    (c.execute q).Within Works (fun x _ => x.Placed) b := by
  unfold execute
  split
  · exact receive_works h c q.content
  · exact giveUp_works h q.content
  · exact h.works

end EventConfig

namespace Plugin

open Bench

variable {b : Bench} {r : TaskRecord}

theorem start_works (h : b.At r) (p : Plugin) (ctx : CallContext) :
    (p.start ctx).Within Works (fun x _ => x.Placed) b := by
  cases p with
  | form c => exact FormConfig.start_works h
  | event c => exact EventConfig.start_works h c ctx

theorem execute_works (h : b.At r) (p : Plugin) (ctx : CallContext) (q : ActionRequest) :
    (p.execute ctx q).Within Works (fun x _ => x.Placed) b := by
  cases p with
  | form c => exact FormConfig.execute_works h c ctx q
  | event c => exact EventConfig.execute_works h c q

/-- What a caller is shown of a task is not changed for it. -/
theorem render_still (b : Bench) (p : Plugin) (ctx : CallContext) :
    (p.render ctx).Ends b (fun _ => Still b) fun _ => Still b := by
  cases p with
  | form c => exact FormConfig.render_still b c ctx
  | event _ => exact .refl b

theorem render_works (h : b.At r) (p : Plugin) (ctx : CallContext) :
    (p.render ctx).Within Works (fun _ _ => True) b :=
  (render_still b p ctx).mono (fun _ _ k => ⟨h.works_of_still k, trivial⟩)
    fun _ _ k => h.works_of_still k

end Plugin

/-! ### Starts and actions -/

namespace Bench

variable {b : Bench} {r : TaskRecord}

/-- The bench's task moved to `next` with the plugin state `x`, after its plugin's work. -/
def Moved (next : Lifecycle) (x : String) (b b' : Bench) : Prop :=
  ∃ r l, b.At r ∧
    b'.At { r with state := next, pluginState := some x, localState := l } ∧
    r.state.canMoveTo next ∧
    ∀ id, id ≠ r.id → b'.store.records.get? id = b.store.records.get? id

/-- What was done at a bench by the time a response is given. -/
def Settled (x : Response) (b b' : Bench) : Prop :=
  x.newState = none ∧ Works b b' ∨
    ∃ next s, x.newState = some next ∧ x.extendedState = some s ∧ Moved next s b b'

theorem settle_ends (h : b.At r) {b₁ : Bench} {x : Response} (w : Works b b₁) (hx : x.Placed) :
    (settle x).Ends b₁ (fun y b' => Settled y b b') fun _ b' => Works b b' := by
  obtain ⟨r', r₁, hr', h₁, ⟨l, p, rfl, hp⟩, he⟩ := w
  obtain rfl := h.unique hr'
  have w : Works b b₁ := ⟨r, _, h, h₁, ⟨l, p, rfl, hp⟩, he⟩
  unfold settle
  rcases hx with hx | ⟨next, s, hn, hs⟩
  · rw [hx]
    exact .inl ⟨hx, w⟩
  · rw [hn]
    simp only [Act.ends_bind, hs]
    -- a move that is illegal, or that the store fails to write, leaves the draft
    refine move_ends h₁ next (some s) (fun hmove => ?_) (fun _ => w)
      fun _ _ => w.trans h₁.works_called
    refine .inr ⟨next, s, hn, hs, r, l, h, at_put b₁ _, hmove, fun id hid => ?_⟩
    exact (Table.get?_insert_ne _ _ hid).trans (he id hid)

theorem startBy_ends {logic : Act Bench Response} (h : b.At r)
    (hl : logic.Within Works (fun x _ => x.Placed) b) :
    (startBy logic).Ends b (fun x b' => Settled x b b') fun _ b' => Works b b' := by
  simp only [startBy, handleNow, Act.ends_bind, Act.ends_of, Act.ends_ite]
  split
  · exact .inl ⟨rfl, h.works⟩
  · exact Act.Ends.mono hl (fun x _ k => settle_ends h k.1 k.2) fun _ _ k => k

theorem executeBy_ends {logic : Act Bench Response} (h : b.At r)
    (hl : logic.Within Works (fun x _ => x.Placed) b) :
    (executeBy logic).Ends b (fun x b' => Settled x b b') fun _ b' => Works b b' := by
  simp only [executeBy, handleNow, Act.ends_bind, Act.ends_of, Act.ends_ite]
  split
  · exact h.works
  · exact Act.Ends.mono hl (fun x _ k => settle_ends h k.1 k.2) fun _ _ k => k

end Bench

end Clearance
