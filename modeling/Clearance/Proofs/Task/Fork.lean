import Clearance.Proofs.Task.Benchwork

/-!
# Clearance — Proofs — Task — A plugin whose context is cancelled

* `Forks`: an action in a fresh context beside the same action in a cancelled one.  Either nobody
  outside is called and the two do the same, or the cancelled one stops at its first call, and has
  done nothing before it.
* `Plugin.start_forks`, `Plugin.execute_forks`, `Plugin.render_forks`: the built-in plugins fork.
* `Agency.Elsewhere`, `Bench.Elsewhere`: the same with another journal.
* `Bench.elsewhere_benchwork`, `Plugin.render_elsewhere`: no plugin reads the journal.
-/

namespace Clearance

open Act

/-- The context, cancelled or not. -/
def CallContext.under (cancelled : Bool) (ctx : CallContext) : CallContext :=
  { ctx with cancelled := cancelled }

/-! ### Steps at the desk -/

/-- The outside is as it was. -/
def Indoors {α : Type} (a : Act Bench α) : Prop := ∀ b, (a.go b).2.agency = b.agency

theorem indoors_onStore {α : Type} (a : Act TaskStore α) : Indoors (Bench.onStore a) := by
  intro b
  rw [Bench.onStore, Act.on, go_of]

theorem indoors_deskwork : Deskwork @Indoors where
  pure _ _ := rfl
  throw _ _ := rfl
  bind := by
    intro α β a f ha hf b
    have h := ha b
    rw [go_bind]
    revert h
    rcases a.go b with ⟨_ | x, b₁⟩
    · exact fun h => h
    · exact fun h => (hf x b₁).trans h
  attempt ha b := ha b
  handleNow _ := rfl
  setHandle _ _ := rfl
  write _ _ _ := indoors_onStore _

/-! ### Forks -/

/-- The bench once a call that was not sent is noted. -/
def Bench.noting (b : Bench) (call : AgencyCall) : Bench := { b with agency := b.agency.note call }

/-- At every bench, `fresh` calls nobody and `cancelled` does the same, or `fresh` calls somebody
and `cancelled` notes the first call and fails. -/
def Forks {α : Type} (fresh cancelled : Act Bench α) : Prop :=
  ∀ b, cancelled.go b = fresh.go b ∧ (fresh.go b).2.agency.journal = b.agency.journal ∨
    (fresh.go b).2.agency.journal ≠ b.agency.journal ∧
      ∃ url call, call.sent = false ∧ cancelled.go b = (.error (.callCancelled url), b.noting call)

namespace Forks

variable {α β : Type} {a a' : Act Bench α} {f g : α → Act Bench β}

theorem of_indoors (h : Indoors a) : Forks a a :=
  fun b => .inl ⟨rfl, congrArg Agency.journal (h b)⟩

/-- What only reads may come first. -/
theorem after (ha : ∀ b, (a.go b).2 = b) (h : ∀ x, Forks (f x) (g x)) :
    Forks (a >>= f) (a >>= g) := by
  intro b
  have hb := ha b
  rw [go_bind, go_bind]
  revert hb
  rcases a.go b with ⟨_ | x, b₁⟩
  · rintro rfl
    exact .inl ⟨rfl, rfl⟩
  · rintro rfl
    exact h x b₁

/-- What calls nobody may follow. -/
theorem bind (h : Forks a a') (hf : ∀ x, Indoors (f x)) : Forks (a >>= f) (a' >>= f) := by
  intro b
  have hsame : ((a >>= f).go b).2.agency = (a.go b).2.agency := by
    rw [go_bind]
    rcases a.go b with ⟨_ | x, b₁⟩
    · rfl
    · exact hf x b₁
  rw [hsame]
  rcases h b with ⟨ha, hj⟩ | ⟨hj, url, call, hsent, ha⟩
  · refine .inl ⟨?_, hj⟩
    rw [go_bind, go_bind, ha]
  · refine .inr ⟨hj, url, call, hsent, ?_⟩
    rw [go_bind, ha]

theorem ite {p : Prop} [Decidable p] {b b' : Act Bench α} (ha : p → Forks a a')
    (hb : ¬ p → Forks b b') : Forks (if p then a else b) (if p then a' else b') := by
  split
  · exact ha ‹_›
  · exact hb ‹_›

/-- A check before an action. -/
theorem check {p : Prop} [Decidable p] {e : Failure} {b b' : PUnit → Act Bench α}
    (h : Forks (b ⟨⟩) (b' ⟨⟩)) :
    Forks (if p then (MonadExcept.throw e : Act Bench PUnit) >>= b else b ⟨⟩)
      (if p then (MonadExcept.throw e : Act Bench PUnit) >>= b' else b' ⟨⟩) :=
  ite (fun _ _ => .inl ⟨rfl, rfl⟩) fun _ => h

end Forks

/-- A call is noted whether it is sent or not. -/
theorem Agency.exists_journal_call (ctx : CallContext) (method : HttpMethod) (url : String)
    (body : Json) (a : Agency) :
    ∃ noted, ((call ctx method url body).go a).2.journal = a.journal ++ [noted] := by
  rw [call, go_of]
  by_cases hc : ctx.cancelled = true
  · rw [if_pos hc]
    exact ⟨_, rfl⟩
  rw [if_neg hc]
  cases Url.check url with
  | error _ => exact ⟨_, rfl⟩
  | ok address =>
      dsimp only
      by_cases hr : (!a.reachable) = true
      · rw [if_pos hr]
        exact ⟨_, rfl⟩
      rw [if_neg hr]
      have htake : ∀ (a : Agency) (key : HttpMethod × String),
          (a.takeReply key).2.journal = a.journal := by
        intro a key
        unfold takeReply
        split
        · rfl
        · rfl
      refine ⟨⟨method, url, body, true⟩, ?_⟩
      have hj := htake (a.note ⟨method, url, body, true⟩) (method, url)
      revert hj
      rcases (a.note ⟨method, url, body, true⟩).takeReply (method, url) with ⟨_ | _ | _, a'⟩
      · exact fun hj => hj
      · exact fun hj => hj
      · exact fun hj => hj

/-- A call to an agency is where a cancelled context stops. -/
theorem forks_call (ctx : CallContext) (method : HttpMethod) (url : String) (body : Json) :
    Forks (Bench.onAgency (Agency.call (ctx.under false) method url body))
      (Bench.onAgency (Agency.call (ctx.under true) method url body)) := by
  intro b
  refine .inr ⟨?_, url, ⟨method, url, body, false⟩, rfl, rfl⟩
  obtain ⟨call, hcall⟩ :=
    Agency.exists_journal_call (ctx.under false) method url body b.agency
  have hj : ((Bench.onAgency (Agency.call (ctx.under false) method url body)).go b).2.agency.journal
      = b.agency.journal ++ [call] := hcall
  rw [hj]
  exact fun h => List.cons_ne_nil call [] (List.append_right_eq_self.mp h)

theorem reads_handleNow (b : Bench) : (Bench.handleNow.go b).2 = b := rfl

theorem reads_lift {α : Type} (r : Except Failure α) (b : Bench) :
    ((Act.lift r : Act Bench α).go b).2 = b := rfl

/-! ### The plugins fork -/

section Plugins

variable (ctx : CallContext)

theorem FormConfig.forward_forks (c : FormConfig) (data : Json) :
    Forks (c.forward (ctx.under false) data) (c.forward (ctx.under true) data) := by
  unfold forward
  cases c.submissionUrl with
  | none => exact .of_indoors (indoors_deskwork.pure _)
  | some url =>
      refine .after reads_handleNow fun h => .bind (forks_call ctx .post url _) fun reply => ?_
      exact indoors_deskwork.bind (indoors_deskwork.setLocal _ _) fun _ => indoors_deskwork.pure _

theorem FormConfig.submit_forks (c : FormConfig) (content : Json) :
    Forks (c.submit (ctx.under false) content) (c.submit (ctx.under true) content) := by
  refine .after reads_handleNow fun h => .check (.after (reads_lift _) fun data => ?_)
  refine .bind (c.forward_forks ctx data) fun reply => ?_
  exact indoors_deskwork.bind (indoors_deskwork.setLocal _ _) fun _ => indoors_deskwork.pure _

theorem FormConfig.form_forks (c : FormConfig) :
    Forks (c.form (ctx.under false)) (c.form (ctx.under true)) := by
  unfold form
  split
  · exact .of_indoors (indoors_deskwork.pure _)
  · exact .of_indoors (indoors_deskwork.pure _)
  · refine .after (fun _ => rfl) fun b => ?_
    cases b.fetched with
    | some form => exact .of_indoors (indoors_deskwork.pure _)
    | none =>
        refine .bind (forks_call ctx .get _ .null) fun form => ?_
        exact indoors_deskwork.bind (fun _ => rfl) fun _ => indoors_deskwork.pure _

theorem EventConfig.announce_forks (c : EventConfig) :
    Forks (c.announce (ctx.under false)) (c.announce (ctx.under true)) := by
  unfold announce
  cases c.notifyUrl with
  | none => exact .of_indoors (indoors_deskwork.pure _)
  | some url =>
      refine .after reads_handleNow fun h => .bind (forks_call ctx .post url _) fun reply => ?_
      exact indoors_deskwork.setLocal _ _

theorem EventConfig.start_forks (c : EventConfig) :
    Forks (c.start (ctx.under false)) (c.start (ctx.under true)) := by
  refine .after reads_handleNow fun h => ?_
  refine .ite (fun _ => .of_indoors (indoors_deskwork.pure _)) fun _ => ?_
  refine .ite (fun _ => ?_) fun _ => .of_indoors (indoors_deskwork.pure _)
  refine .bind (c.announce_forks ctx) fun _ => ?_
  exact indoors_deskwork.bind (indoors_deskwork.setPluginState _) fun _ => indoors_deskwork.pure _

namespace Plugin

theorem start_forks (p : Plugin) : Forks (p.start (ctx.under false)) (p.start (ctx.under true)) := by
  cases p with
  | form c => exact .of_indoors indoors_deskwork.startForm
  | event c => exact c.start_forks ctx

theorem execute_forks (p : Plugin) (q : ActionRequest) :
    Forks (p.execute (ctx.under false) q) (p.execute (ctx.under true) q) := by
  cases p with
  | form c =>
      unfold execute FormConfig.execute
      dsimp only
      split
      · exact .of_indoors (indoors_deskwork.saveDraft q.content)
      · exact c.submit_forks ctx q.content
      · exact .of_indoors (indoors_deskwork.completeReview c q.content)
      · exact .of_indoors (indoors_deskwork.throw _)
  | event c => exact .of_indoors (indoors_deskwork.executeEvent c q)

theorem render_forks (p : Plugin) :
    Forks (p.render (ctx.under false)) (p.render (ctx.under true)) := by
  cases p with
  | form c =>
      refine .bind (c.form_forks ctx) fun schema => ?_
      exact indoors_deskwork.bind indoors_deskwork.handleNow fun _ => indoors_deskwork.pure _
  | event c => exact .of_indoors (indoors_deskwork.renderEvent c)

end Plugin

/-- What a plugin starts is settled at the bench. -/
theorem Bench.startBy_forks {logic logic' : Act Bench Response} (h : Forks logic logic') :
    Forks (startBy logic) (startBy logic') := by
  refine .after reads_handleNow fun _ => ?_
  refine .ite (fun _ => .of_indoors (indoors_deskwork.pure _)) fun _ => ?_
  exact .bind h indoors_deskwork.settle

theorem Bench.executeBy_forks {logic logic' : Act Bench Response} (h : Forks logic logic') :
    Forks (executeBy logic) (executeBy logic') :=
  .after reads_handleNow fun _ => .check (.bind h indoors_deskwork.settle)

end Plugins

/-! ### Journals -/

/-- The same outside, with another journal. -/
def Agency.Elsewhere (j j' : List AgencyCall) (a b : Agency) : Prop :=
  ∃ made, a.journal = j ++ made ∧ b = { a with journal := j' ++ made }

section Elsewhere

variable {j j' : List AgencyCall}

theorem Agency.Elsewhere.note {a b : Agency} (h : a.Elsewhere j j' b) (c : AgencyCall) :
    (a.note c).Elsewhere j j' (b.note c) := by
  obtain ⟨made, hj, rfl⟩ := h
  refine ⟨made ++ [c], ?_, ?_⟩
  · rw [Agency.note, hj, List.append_assoc]
  · rw [Agency.note, Agency.note, List.append_assoc]

theorem Agency.Elsewhere.takeReply {a b : Agency} (h : a.Elsewhere j j' b)
    (key : HttpMethod × String) :
    (b.takeReply key).1 = (a.takeReply key).1 ∧
      (a.takeReply key).2.Elsewhere j j' (b.takeReply key).2 := by
  obtain ⟨made, hj, rfl⟩ := h
  unfold Agency.takeReply
  dsimp only
  split
  · exact ⟨rfl, made, hj, rfl⟩
  · exact ⟨rfl, made, hj, rfl⟩

theorem Agency.call_elsewhere (ctx : CallContext) (method : HttpMethod) (url : String)
    (body : Json) : Respects (Elsewhere j j') (call ctx method url body) := by
  refine .of_go fun a b h => ?_
  simp only [call, go_of]
  cases ctx.cancelled with
  | true => exact ⟨rfl, h.note _⟩
  | false =>
      cases Url.check url with
      | error problem => exact ⟨rfl, h.note _⟩
      | ok address =>
          have hreach : b.reachable = a.reachable := by
            obtain ⟨_, -, rfl⟩ := h
            rfl
          simp only [hreach]
          cases a.reachable with
          | false => exact ⟨rfl, h.note _⟩
          | true =>
              have k := fun c => (h.note c).takeReply (method, url)
              simp only [(k _).1, Bool.not_true, Bool.false_eq_true, if_false]
              split
              · exact ⟨rfl, (k _).2⟩
              · exact ⟨rfl, (k _).2⟩
              · exact ⟨rfl, (k _).2⟩

/-- The same bench, with another journal of the agencies. -/
structure Bench.Elsewhere (j j' : List AgencyCall) (b c : Bench) : Prop where
  handle : c.handle = b.handle
  fetched : c.fetched = b.fetched
  store : c.store = b.store
  agency : b.agency.Elsewhere j j' c.agency

namespace Bench

theorem onAgency_elsewhere {α : Type} {a : Act Agency α}
    (ha : Respects (Agency.Elsewhere j j') a) : Respects (Elsewhere j j') (onAgency a) :=
  ha.on (fun _ _ h => h.agency) fun _ _ _ _ h k => ⟨h.handle, h.fetched, h.store, k⟩

theorem elsewhere_benchwork : Benchwork (Respects (Elsewhere j j')) where
  toClosed := Respects.closed _
  handleNow := .of_go fun _ _ h => ⟨congrArg Except.ok h.handle.symm, h⟩
  setHandle f := .of_go fun _ _ h => ⟨rfl, congrArg f h.handle, h.fetched, h.store, h.agency⟩
  write m id f := by
    refine .on (S := Eq) (.of_go ?_) (fun _ _ h => h.store.symm) fun _ _ _ _ h k =>
      ⟨h.handle, h.fetched, k.symm, h.agency⟩
    rintro s _ rfl
    exact ⟨rfl, rfl⟩
  submit ctx url data task workflow := onAgency_elsewhere (Agency.call_elsewhere _ _ _ _)

end Bench

theorem FormConfig.form_elsewhere (c : FormConfig) (ctx : CallContext) :
    Respects (Bench.Elsewhere j j') (c.form ctx) := by
  unfold form
  split
  · exact .pure _
  · exact .pure _
  · rename_i url _ _
    intro b b' h
    have hget : (get : Act Bench Bench).Alike get b b'
        (fun x y s t => x = s ∧ y = t ∧ Bench.Elsewhere j j' s t) (Bench.Elsewhere j j') :=
      ⟨rfl, rfl, h⟩
    refine hget.bind ?_
    rintro x y _ _ ⟨rfl, rfl, h⟩
    rw [h.fetched]
    cases x.fetched with
    | some form => exact Respects.pure _ _ _ h
    | none =>
        refine Respects.bind (Bench.onAgency_elsewhere (Agency.call_elsewhere ctx .get url .null))
          (fun form => ?_) _ _ h
        refine .bind (.of_go fun b b' h => ⟨rfl, h.handle, rfl, h.store, h.agency⟩) fun _ => ?_
        exact .pure _

theorem Plugin.render_elsewhere (p : Plugin) (ctx : CallContext) :
    Respects (Bench.Elsewhere j j') (p.render ctx) :=
  Bench.elsewhere_benchwork.render p ctx fun c _ => c.form_elsewhere ctx

end Elsewhere

end Clearance
