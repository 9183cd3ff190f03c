import Clearance.Proofs.Task.Legal
import Clearance.Proofs.Task.Staging

/-!
# Clearance — Proofs — Task — Actions that fail

An action calls an agency, writes local data and moves its task, in this order, and each of these
may fail.  What was written before stays, but it is local data alone, under the keys of the action.

* `TaskKind.writes`: the keys that an action writes.
* `Bench.Comes`: how far an action has come.  It is on its way with the record edited, and
  everything in the store but the record as the calls leave it.
* `Bench.Fails`: how an action fails.  A record that was edited was so before a call to the store
  failed.
* `Plugin.execute_fails`: every action of a plugin fails so.
* `Workshop.failed_action_undone`: what that is to the record, to the live container and to whoever
  takes the notifications.
-/

namespace Clearance

/-- The keys of the local data that an action on a task of this kind writes. -/
def TaskKind.writes : TaskKind → String → List String
  | .simpleForm, "save_draft" => ["draft"]
  | .simpleForm, "submit" => ["submissionResponse", "submission"]
  | .simpleForm, "review_complete" => ["review"]
  | .waitForEvent, "event_received" => ["event"]
  | .waitForEvent, "event_failed" => ["failure"]
  | _, _ => []

/-- `r'` is `r` with other local data under these keys. -/
def TaskRecord.Edited (keys : List String) (r r' : TaskRecord) : Prop :=
  ∃ l, r' = { r with localState := l } ∧ ∀ key ∉ keys, l.get? key = r.localState.get? key

theorem TaskRecord.Edited.refl (keys : List String) (r : TaskRecord) : r.Edited keys r :=
  ⟨_, rfl, fun _ _ => rfl⟩

theorem TaskRecord.Edited.insert {keys : List String} {r r' : TaskRecord} (h : r.Edited keys r')
    {key : String} (hkey : key ∈ keys) (value : Json) :
    r.Edited keys { r' with localState := r'.localState.insert key value } := by
  obtain ⟨l, rfl, hl⟩ := h
  refine ⟨_, rfl, fun k hk => ?_⟩
  have hne : key ≠ k := fun e => hk (e ▸ hkey)
  rw [Context.get?_insert, if_neg hne.symm]
  exact hl k hk

namespace Bench

variable {keys : List String} {b b₁ : Bench} {r r₁ : TaskRecord}

/-- An action that began with the record `r` at the bench `b` has come to `r'` at `b'`. -/
structure Comes (keys : List String) (b : Bench) (r : TaskRecord) (b' : Bench) (r' : TaskRecord) :
    Prop where
  here : b'.At r'
  edited : r.Edited keys r'
  onward : b.store.Onward b'.store

/-- An action that began so has failed.  The record is the one it began with, unless it was a call
to the store that failed. -/
def Fails (keys : List String) (b : Bench) (r : TaskRecord) (f : Failure) (b' : Bench) : Prop :=
  ∃ r', Comes keys b r b' r' ∧ (r' = r ∨ b.store.FailedBy b'.store f)

theorem At.comes (h : b.At r) (keys : List String) : Comes keys b r b r := ⟨h, .refl _ _, .refl _⟩

theorem Comes.fails (h : Comes keys b r b₁ r) (f : Failure) : Fails keys b r f b₁ :=
  ⟨r, h, .inl rfl⟩

/-- A call to the store that failed. -/
theorem Comes.refused (h : Comes keys b r b₁ r₁) {f : Failure} (hf : b₁.store.Refuses f) :
    Fails keys b r f b₁.called := by
  refine ⟨r₁, ⟨h.here.called, h.edited, h.onward.trans ⟨rfl, rfl, Nat.le_succ _⟩⟩, .inr ?_⟩
  exact h.onward.failedBy hf.failedBy

section Steps

variable {α : Type} {ok : α → Bench → Prop}

/-- Local data is written under a key of the action. -/
theorem Comes.setLocal_bind (h : Comes keys b r b₁ r₁) {key : String} (hkey : key ∈ keys)
    (value : Json) {f : Unit → Act Bench α}
    (hok : ∀ b₂ r₂, Comes keys b r b₂ r₂ → (f ()).Ends b₂ ok (Fails keys b r)) :
    (setLocal key value >>= f).Ends b₁ ok (Fails keys b r) := by
  rw [Act.ends_bind]
  refine setLocal_ends h.here key value (hok _ _ ⟨at_put _ _, h.edited.insert hkey value, ?_⟩)
    fun _ => h.refused
  exact h.onward.trans ⟨rfl, rfl, Nat.le_succ _⟩

/-- An agency is called while nothing has been written yet. -/
theorem Comes.onAgency_bind {β : Type} (h : Comes keys b r b₁ r) (a : Act Agency β)
    {f : β → Act Bench α}
    (hok : ∀ x b₂, Comes keys b r b₂ r → (f x).Ends b₂ ok (Fails keys b r)) :
    (onAgency a >>= f).Ends b₁ ok (Fails keys b r) := by
  have hcomes : ∀ agency, Comes keys b r { b₁ with agency := agency } r :=
    fun _ => ⟨⟨h.here.stored, h.here.copied⟩, h.edited, h.onward⟩
  rw [Act.ends_bind, onAgency, Act.ends_on, Act.ends_iff]
  exact ⟨fun x agency _ => hok x _ (hcomes agency), fun f agency _ => (hcomes agency).fails f⟩

/-- The task is moved, legally. -/
theorem Comes.settle (h : Comes keys b r b₁ r₁) {x : Response} (hx : x.Onward)
    (ht : r.state.isTerminal = false) :
    (settle x).Ends b₁ (fun _ _ => True) (Fails keys b r) := by
  obtain ⟨l, rfl, -⟩ := id h.edited
  refine (settle_onward h.here ht hx).mono (fun _ _ _ => trivial) fun f _ hf => ?_
  obtain ⟨hrefuses, rfl⟩ := hf
  exact h.refused hrefuses

end Steps

/-- The logic of an action edits the record, or fails. -/
def Tries (keys : List String) (b : Bench) (r : TaskRecord) (logic : Act Bench Response) : Prop :=
  logic.Ends b (fun _ b' => ∃ r', Comes keys b r b' r') (Fails keys b r)

theorem executeBy_fails (h : b.At r) {logic : Act Bench Response} (hl : Tries keys b r logic)
    (hlawful : logic.Lawful Response.Onward) :
    (executeBy logic).Ends b (fun _ _ => True) (Fails keys b r) := by
  simp only [executeBy]
  rw [h.handleNow_bind]
  split
  · exact (h.comes keys).fails _
  · rename_i ht
    rw [Act.ends_bind]
    refine (Act.Ends.and hl (hlawful b)).mono (fun x b₁ k => ?_) fun _ _ k => k.1
    obtain ⟨⟨r₁, hcomes⟩, hx⟩ := k
    exact hcomes.settle hx (Bool.eq_false_iff.mpr ht)

end Bench

/-! ### The actions of the plugins -/

open Bench

variable {b : Bench} {r : TaskRecord}

namespace FormConfig

theorem saveDraft_tries (h : b.At r) (content : Json) :
    Tries ["draft"] b r (saveDraft content) := by
  simp only [Tries, saveDraft]
  rw [Act.ends_bind, Act.ends_lift]
  cases objectContent content with
  | error f => exact (h.comes _).fails f
  | ok draft =>
      exact (h.comes _).setLocal_bind (by decide) draft fun b₁ r₁ h₁ => ⟨r₁, h₁⟩

/-- Only once the agency has replied is anything written. -/
theorem forward_comes (h : b.At r) (c : FormConfig) (ctx : CallContext) (data : Json)
    {keys : List String} (hkey : "submissionResponse" ∈ keys) :
    (c.forward ctx data).Ends b (fun _ b' => ∃ r', Comes keys b r b' r') (Fails keys b r) := by
  simp only [forward]
  cases c.submissionUrl with
  | none => exact ⟨r, h.comes _⟩
  | some url =>
      dsimp only
      rw [h.handleNow_bind]
      refine (h.comes keys).onAgency_bind _ fun reply b₁ h₁ => ?_
      exact h₁.setLocal_bind hkey reply fun b₂ r₂ h₂ => ⟨r₂, h₂⟩

theorem submit_tries (h : b.At r) (c : FormConfig) (ctx : CallContext) (content : Json) :
    Tries ["submissionResponse", "submission"] b r (c.submit ctx content) := by
  simp only [Tries, submit]
  rw [h.handleNow_bind]
  split
  · exact (h.comes _).fails _
  rw [Act.ends_bind, Act.ends_lift]
  cases objectContent content with
  | error f => exact (h.comes _).fails f
  | ok data =>
      dsimp only
      rw [Act.ends_bind]
      refine (forward_comes h c ctx data (by decide)).mono (fun reply b₁ k => ?_) fun _ _ k => k
      obtain ⟨r₁, h₁⟩ := k
      exact h₁.setLocal_bind (by decide) data fun b₂ r₂ h₂ => ⟨r₂, h₂⟩

theorem completeReview_tries (h : b.At r) (c : FormConfig) (content : Json) :
    Tries ["review"] b r (c.completeReview content) := by
  simp only [Tries, completeReview]
  rw [h.handleNow_bind]
  split
  · exact (h.comes _).fails _
  split
  · exact (h.comes _).fails _
  · exact (h.comes _).setLocal_bind (by decide) content fun b₁ r₁ h₁ => ⟨r₁, h₁⟩

theorem execute_tries (h : b.At r) (c : FormConfig) (ctx : CallContext) (q : ActionRequest) :
    Tries (TaskKind.simpleForm.writes q.action) b r (c.execute ctx q) := by
  simp only [execute]
  split
  · rename_i hq
    rw [hq]
    exact saveDraft_tries h q.content
  · rename_i hq
    rw [hq]
    exact submit_tries h c ctx q.content
  · rename_i hq
    rw [hq]
    exact completeReview_tries h c q.content
  · exact (h.comes _).fails _

end FormConfig

namespace EventConfig

theorem receive_tries (h : b.At r) (c : EventConfig) (content : Json) :
    Tries ["event"] b r (c.receive content) := by
  simp only [Tries, receive]
  rw [Act.ends_bind, Act.ends_lift]
  cases objectContent content with
  | error f => exact (h.comes _).fails f
  | ok content =>
      dsimp only
      split
      · exact (h.comes _).fails _
      · exact (h.comes _).setLocal_bind (by decide) content fun b₁ r₁ h₁ => ⟨r₁, h₁⟩

theorem giveUp_tries (h : b.At r) (content : Json) : Tries ["failure"] b r (giveUp content) :=
  (h.comes _).setLocal_bind (by decide) content fun _ r₁ h₁ => ⟨r₁, h₁⟩

theorem execute_tries (h : b.At r) (c : EventConfig) (q : ActionRequest) :
    Tries (TaskKind.waitForEvent.writes q.action) b r (c.execute q) := by
  simp only [execute]
  split
  · rename_i hq
    rw [hq]
    exact receive_tries h c q.content
  · rename_i hq
    rw [hq]
    exact giveUp_tries h q.content
  · exact (h.comes _).fails _

end EventConfig

/-- An action of a plugin that fails leaves the record but for the keys that the action writes. -/
theorem Plugin.execute_fails (h : b.At r) (p : Plugin) (ctx : CallContext) (q : ActionRequest) :
    (executeBy (p.execute ctx q)).Ends b (fun _ _ => True)
      (Fails (p.kind.writes q.action) b r) := by
  refine executeBy_fails h ?_ (p.execute_lawful ctx q)
  cases p with
  | form c => exact FormConfig.execute_tries h c ctx q
  | event c => exact EventConfig.execute_tries h c q

theorem Plugin.kind_of_build {kind : TaskKind} {config : Json} {p : Plugin}
    (h : build kind config = .ok p) : p.kind = kind := by
  cases kind with
  | simpleForm =>
      obtain ⟨c, -, rfl⟩ := of_build_form h
      rfl
  | waitForEvent =>
      obtain ⟨c, rfl⟩ := of_build_event h
      rfl

/-! ### Actions in a workshop -/

namespace Workshop

variable {w w' : Workshop} {id : NodeId} {log : List (Call × Call.Answer)}

theorem Runs.build (h : Runs w log w') (hw : w.Coherent) : w'.build = w.build := by
  induction h with
  | nil => rfl
  | between _ hb ih => exact hb.build.trans ih
  | call h c ih => exact (c.serves (h.coherent hw)).build.trans ih

/-- What the record of a node is once an action on it has failed. -/
theorem execute_fails (hw : w.Coherent) (hb : w.build = Plugin.build) (ctx : CallContext)
    (q : ActionRequest) {r : TaskRecord} (hr : w.store.records.get? id = some r) :
    (execute ctx id q).Ends w (fun _ _ => True) fun f w' =>
      ∃ r', w'.store.records.get? id = some r' ∧ r.Edited (r.kind.writes q.action) r' ∧
        (r' = r ∨ w.store.FailedBy w'.store f) := by
  simp only [execute]
  by_cases hq : Text.isBlankText q.action = true
  · rw [if_pos hq]
    exact ⟨r, hr, .refl _ _, .inl rfl⟩
  rw [if_neg hq, Act.ends_bind]
  refine (resolve_ends hw id).mono (fun c w₁ h => ?_) fun e w₁ h => ?_
  · obtain ⟨hkept, r₀, hr₀, hc⟩ := h
    obtain rfl := Option.some.inj (hr.symm.trans hr₀)
    have hkind : c.plugin.kind = r.kind :=
      Plugin.kind_of_build ((hkept.build.trans hb) ▸ hc.built)
    rw [Act.ends_bind, ends_work]
    refine (Plugin.execute_fails hc.bench_at c.plugin ctx q).mono (fun x b _ => ?_) fun f b h => ?_
    · exact (announce_still _ _ x).mono (fun _ _ _ => trivial) fun _ _ k => k.elim
    · obtain ⟨r', hcomes, hsame⟩ := h
      rw [hkind] at hcomes
      refine ⟨r', ?_, hcomes.edited, hsame.imp_right hkept.onward.failedBy⟩
      obtain ⟨l, rfl, -⟩ := hcomes.edited
      rw [← hw.keyed id r hr]
      exact hcomes.here.stored
  · exact ⟨r, h.1.records ▸ hr, .refl _ _, .inl rfl⟩

/-- A live container is found in the cache, and stays there. -/
theorem resolve_live (h : w.isLive id = true) :
    (resolve id).Ends w (fun _ w' => w'.cache.entries.values = w.cache.entries.values)
      fun _ _ => False := by
  obtain ⟨c, hc⟩ := Table.contains_iff.mp h
  obtain ⟨cache, hv, hf⟩ := w.cache.find_eq id
  rw [hc] at hf
  rw [resolve, acquire, Act.ends_bind, lookUp, Act.ends_of, hf]
  exact hv

theorem isLive_keeping (h : w.isLive id = true) (c : Container) (b : Bench) :
    (w.keeping c b).isLive id = true := by
  obtain ⟨x, hx⟩ := Table.contains_iff.mp h
  refine Table.contains_iff.mpr ?_
  show ∃ y, (w.cache.entries.set c.handle.nodeId (c.after b)).values.get? id = some y
  rw [Lru.set]
  split
  · rw [Table.get?_insert]
    split
    · exact ⟨_, rfl⟩
    · exact ⟨x, hx⟩
  · exact ⟨x, hx⟩

/-- An action leaves a live container live. -/
theorem execute_live (h : w.isLive id = true) (ctx : CallContext) (q : ActionRequest) :
    ((execute ctx id q).go w).2.isLive id = true := by
  refine (Act.ends_state (P := fun w' : Workshop => w'.isLive id = true)).mp ?_
  simp only [execute]
  by_cases hq : Text.isBlankText q.action = true
  · rw [if_pos hq]
    exact h
  rw [if_neg hq, Act.ends_bind]
  refine (resolve_live h).mono (fun c w₁ hv => ?_) fun _ _ k => k.elim
  have hlive : w₁.isLive id = true := by
    rw [isLive, ContainerCache.contains, Lru.contains, hv]
    exact h
  rw [Act.ends_bind, ends_work]
  refine Act.Ends.mono ((Act.ends_state (P := fun _ => True)).mpr trivial) (fun x b _ => ?_)
    fun _ b _ => ?_
  · have hkeep := isLive_keeping hlive c b
    simp only [announce]
    cases x.notification? c.handle.nodeId with
    | none => exact hkeep
    | some _ => exact hkeep
  · exact isLive_keeping hlive c b

/-- **Failed actions.** When an action fails after any run, nothing is sent and no other record is
touched.  The record of its task is where it was, with the local data under other keys than those
that the action writes, and it is as it was altogether unless the last call to the store is what
failed.  A live container stays live and is a copy of the record.  No call at all is answered by an
illegal move. -/
theorem failed_action_undone (containers notifications : Nat)
    (h : Runs (ofCapacity containers notifications) log w) :
    (∀ ctx id q f w', (execute ctx id q).go w = (.error f, w') →
      Sends none w w' ∧
      (∀ k, k ≠ id → w'.store.records.get? k = w.store.records.get? k) ∧
      (w.store.records.get? id = none → w'.store.records.get? id = none) ∧
      (w.isLive id = true → w'.isLive id = true) ∧
      ∀ r, w.store.records.get? id = some r →
        ∃ l, w'.store.records.get? id = some { r with localState := l } ∧
          (∀ key ∉ r.kind.writes q.action, l.get? key = r.localState.get? key) ∧
          (l = r.localState ∨ w.store.FailedBy w'.store f) ∧
          ∀ c, w'.cache.entries.values.get? id = some c →
            c.handle = .ofRecord { r with localState := l }) ∧
    ∀ (c : Call) id l m, (c.perform w).1.failure? ≠ some (.illegalMove id l m) := by
  have h₀ := coherent_ofCapacity containers notifications
  have hw := h.coherent h₀
  have hb : w.build = Plugin.build := h.build h₀
  refine ⟨fun ctx id q f w' hgo => ?_, fun c id l m hc => ?_⟩
  · have hs := execute_serves hw ctx id q
    have hr := execute_reports hw ctx id q
    rw [hgo] at hs hr
    refine ⟨hr.sends, hs.elsewhere, fun hno => ?_, fun hlive => ?_, fun r hrec => ?_⟩
    · have hun := execute_absent hw hno ctx q
      rw [hgo] at hun
      rw [hun.1, hno]
    · have hl := execute_live hlive ctx q
      rwa [hgo] at hl
    · have hf := execute_fails hw hb ctx q hrec
      obtain ⟨r', hrec', ⟨l, rfl, hkeys⟩, hsame⟩ := (Act.ends_iff.mp hf).2 f w' hgo
      refine ⟨l, hrec', hkeys, hsame.imp_left (congrArg TaskRecord.localState), fun c hc => ?_⟩
      obtain ⟨r₁, hid, hhas⟩ := hs.coherent.cached id c hc
      obtain rfl := Option.some.inj ((hid ▸ hhas.stored).symm.trans hrec')
      exact hhas.copied
  · exact (c.legal hw hb hc).ne id l m rfl

/-- A workshop in which the form is open, and its task cannot be moved. -/
def stuck : Workshop :=
  { withForm with
    store := { withForm.store with faults := .everyCallTo [.updateState] } }

/-- A submission that cannot move the task is stored all the same, but not announced. -/
theorem failed_action_undone_stuck :
    ∃ w' r l, (execute {} ⟨"$1-apply"⟩ ⟨"submit", .null⟩).go stuck =
        (.error (.storeFault "update_state"), w') ∧
      Sends none stuck w' ∧
      stuck.store.records.get? ⟨"$1-apply"⟩ = some r ∧
      w'.store.records.get? ⟨"$1-apply"⟩ = some { r with localState := l } ∧
      l.get? "draft" = r.localState.get? "draft" ∧ l.get? "submission" = some (.obj []) := by
  have hrun : Runs (ofCapacity 1 1) ([] ++ [(opening, _)]) stuck :=
    .between (.call .nil opening) ⟨rfl, fun _ _ h => h, fun _ h => h, rfl⟩
  have hfail : Act.failureOf ((execute {} ⟨"$1-apply"⟩ ⟨"submit", .null⟩).go stuck).1 =
      some (.storeFault "update_state") := by
    decide +kernel
  have hsub : (((execute {} ⟨"$1-apply"⟩ ⟨"submit", .null⟩).go stuck).2.store.records.get?
      ⟨"$1-apply"⟩).map (·.localState.get? "submission") = some (some (.obj [])) := by
    decide +kernel
  have hrec : (stuck.store.records.get? ⟨"$1-apply"⟩).isSome = true := by decide +kernel
  obtain ⟨r, hr⟩ := Option.isSome_iff_exists.mp hrec
  rcases hgo : (execute {} ⟨"$1-apply"⟩ ⟨"submit", .null⟩).go stuck with ⟨f | x, w'⟩
  · rw [hgo] at hfail hsub
    obtain rfl : f = .storeFault "update_state" := Option.some.inj hfail
    obtain ⟨hsends, -, -, -, hkept⟩ := (failed_action_undone 1 1 hrun).1 _ _ _ _ _ hgo
    obtain ⟨l, hl, hkeys, -, -⟩ := hkept r hr
    rw [hl] at hsub
    have hkey : "draft" ∉ r.kind.writes "submit" := by cases r.kind <;> decide
    exact ⟨w', r, l, rfl, hsends, hr, hl, hkeys "draft" hkey, Option.some.inj hsub⟩
  · rw [hgo] at hfail
    cases hfail

end Workshop

end Clearance
