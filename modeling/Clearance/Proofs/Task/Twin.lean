import Clearance.Proofs.Task.Bench
import Clearance.Proofs.Task.Benchwork

/-!
# Clearance — Proofs — Task — What a plugin does not see

A plugin sees its handle, the store and the replies to its submissions.  At two benches that agree
in these (`Bench.Twin`) it does the same, whatever was fetched at one of them and not at the other:
`Plugin.start_respects`, `Plugin.execute_respects` and, unless the plugin has to fetch what it
shows, `Plugin.render_respects`.
-/

namespace Clearance

open Act

/-! ### Agencies -/

/-- Two agencies that reply to submissions alike. -/
structure Agency.Like (a b : Agency) : Prop where
  reachable : b.reachable = a.reachable
  posts : ∀ url, b.replies.get? (.post, url) = a.replies.get? (.post, url)

/-- …and that have noted the same calls since their journals were `j` and `j'`. -/
structure Agency.Twin (j j' : List AgencyCall) (a b : Agency) : Prop where
  like : a.Like b
  journal : ∃ made, a.journal = j ++ made ∧ b.journal = j' ++ made

namespace Agency

theorem Like.refl (a : Agency) : a.Like a := ⟨rfl, fun _ => rfl⟩

/-- What two agencies become that were alike. -/
theorem Like.change {a b a' b' : Agency} (h : a.Like b) (ha : a.Like a') (hb : b.Like b') :
    a'.Like b' :=
  ⟨hb.reachable.trans (h.reachable.trans ha.reachable.symm),
    fun url => (hb.posts url).trans ((h.posts url).trans (ha.posts url).symm)⟩

theorem Like.twin {a b : Agency} (h : a.Like b) : Twin a.journal b.journal a b :=
  ⟨h, [], (List.append_nil _).symm, (List.append_nil _).symm⟩

variable {j j' : List AgencyCall} {a b : Agency}

theorem Twin.note (h : Twin j j' a b) (c : AgencyCall) : Twin j j' (a.note c) (b.note c) := by
  obtain ⟨made, ha, hb⟩ := h.journal
  refine ⟨⟨h.like.reachable, h.like.posts⟩, made ++ [c], ?_, ?_⟩
  · rw [Agency.note, ha, List.append_assoc]
  · rw [Agency.note, hb, List.append_assoc]

theorem Twin.takeReply (h : Twin j j' a b) (url : String) :
    (b.takeReply (.post, url)).1 = (a.takeReply (.post, url)).1 ∧
      Twin j j' (a.takeReply (.post, url)).2 (b.takeReply (.post, url)).2 := by
  unfold Agency.takeReply
  rw [h.like.posts url]
  rcases a.replies.get? (.post, url) with _ | _ | ⟨r, rest⟩
  · exact ⟨rfl, h⟩
  · exact ⟨rfl, h⟩
  · refine ⟨rfl, ⟨h.like.reachable, fun url' => ?_⟩, h.journal⟩
    dsimp only
    rw [Table.get?_insert, Table.get?_insert, h.like.posts url']

theorem submit_respects (ctx : CallContext) (url : String) (data : Json) (task : NodeId)
    (workflow : InstanceId) : Respects (Twin j j') (submit ctx url data task workflow) := by
  refine .of_go fun a b h => ?_
  simp only [submit, call, go_of]
  cases ctx.cancelled with
  | true => exact ⟨rfl, h.note _⟩
  | false =>
      cases Url.check url with
      | error problem => exact ⟨rfl, h.note _⟩
      | ok address =>
          simp only [h.like.reachable]
          cases a.reachable with
          | false => exact ⟨rfl, h.note _⟩
          | true =>
              have k := fun c => (h.note c).takeReply url
              simp only [(k _).1, Bool.not_true, Bool.false_eq_true, if_false]
              split
              · exact ⟨rfl, (k _).2⟩
              · exact ⟨rfl, (k _).2⟩
              · exact ⟨rfl, (k _).2⟩

/-- What is fetched uses up no reply to a submission. -/
theorem like_takeReply_get (a : Agency) (url : String) : a.Like (a.takeReply (.get, url)).2 := by
  unfold Agency.takeReply
  split
  · refine ⟨rfl, fun url' => Table.get?_insert_ne _ _ ?_⟩
    intro h
    exact nomatch (Prod.mk.inj h).1
  · exact .refl a

theorem fetch_ends (ctx : CallContext) (url : String) (a : Agency) :
    (fetch ctx url).Ends a (fun _ a' => a.Like a') fun _ a' => a.Like a' := by
  rw [ends_state]
  simp only [fetch, call, go_of]
  cases ctx.cancelled with
  | true => exact ⟨rfl, fun _ => rfl⟩
  | false =>
      cases Url.check url with
      | error problem => exact ⟨rfl, fun _ => rfl⟩
      | ok address =>
          cases hr : a.reachable with
          | false => exact ⟨rfl, fun _ => rfl⟩
          | true =>
              have k := (a.note ⟨.get, url, .null, true⟩).like_takeReply_get url
              simp only [Bool.not_true, Bool.false_eq_true, if_false]
              split
              · exact ⟨k.reachable, k.posts⟩
              · exact ⟨k.reachable, k.posts⟩
              · exact ⟨k.reachable, k.posts⟩

end Agency

/-! ### Stores -/

/-- Two stores that answer every call, with the same records. -/
structure TaskStore.Twin (s t : TaskStore) : Prop where
  records : t.records = s.records
  left : s.Up
  right : t.Up

namespace TaskStore

theorem enter_respects (m : Method) : Respects Twin (enter m) := fun s t h =>
  enter_ends (s := s)
    (enter_ends (s := t) ⟨rfl, h.records, h.left, h.right⟩
      fun _ hno => absurd hno h.right.not_refuses)
    fun _ hno => absurd hno h.left.not_refuses

theorem modify_respects (id : NodeId) (f : TaskRecord → TaskRecord) :
    Respects Twin (modify id f) := by
  refine .of_go fun s t h => ?_
  simp only [modify, go_of]
  rw [h.records]
  cases s.records.get? id with
  | none => exact ⟨rfl, h⟩
  | some r => exact ⟨rfl, rfl, h.left, h.right⟩

/-- A call that writes one record. -/
theorem write_respects (m : Method) (id : NodeId) (f : TaskRecord → TaskRecord) :
    Respects Twin (do enter m; modify id f) :=
  (enter_respects m).bind fun _ => modify_respects id f

end TaskStore

/-! ### Benches -/

/-- Two benches at which a plugin finds the same, except for what was fetched. -/
structure Bench.Twin (j j' : List AgencyCall) (b c : Bench) : Prop where
  handle : c.handle = b.handle
  store : b.store.Twin c.store
  agency : b.agency.Twin j j' c.agency

/-- Only what was fetched, with the calls for it, came to the bench. -/
structure Bench.Shown (b b' : Bench) : Prop where
  handle : b'.handle = b.handle
  store : b'.store = b.store
  agency : b.agency.Like b'.agency

namespace Bench

theorem Shown.refl (b : Bench) : b.Shown b := ⟨rfl, rfl, .refl _⟩

variable {j j' : List AgencyCall}

/-- The steps of a plugin do not tell twins apart. -/
theorem twin_benchwork : Benchwork (Respects (Twin j j')) where
  toClosed := Respects.closed _
  handleNow := .of_go fun _ _ h => ⟨congrArg Except.ok h.handle.symm, h⟩
  setHandle f := .of_go fun _ _ h => ⟨rfl, congrArg f h.handle, h.store, h.agency⟩
  write m id f := (TaskStore.write_respects m id f).on (fun _ _ h => h.store)
    fun _ _ _ _ h k => ⟨h.handle, k, h.agency⟩
  submit ctx url data task workflow :=
    (Agency.submit_respects ctx url data task workflow).on (fun _ _ h => h.agency)
      fun _ _ _ _ h k => ⟨h.handle, h.store, k⟩

end Bench

/-! ### Plugins -/

open Bench

variable {j j' : List AgencyCall}

namespace FormConfig

theorem form_ends (c : FormConfig) (ctx : CallContext) (b : Bench) :
    (c.form ctx).Ends b (fun _ b' => b.Shown b') fun _ b' => b.Shown b' := by
  unfold form
  split
  · exact .refl b
  · exact .refl b
  · simp only [onAgency, ends_bind, ends_get]
    split
    · exact .refl b
    · simp only [ends_bind, ends_on]
      exact (Agency.fetch_ends ctx _ b.agency).mono (fun _ _ h => ⟨rfl, rfl, h⟩)
        fun _ _ h => ⟨rfl, rfl, h⟩

/-- Whether the form has to be fetched before it is shown. -/
def Fetches (c : FormConfig) : Prop := c.schema = none ∧ c.formUrl ≠ none

theorem form_respects {c : FormConfig} (hc : ¬ c.Fetches) (ctx : CallContext) :
    Respects (Bench.Twin j j') (c.form ctx) := by
  unfold form
  split
  · exact .pure _
  · exact .pure _
  · rename_i url hs hu
    exact absurd ⟨hs, hu ▸ Option.some_ne_none url⟩ hc

end FormConfig

namespace Plugin

/-- Whether the plugin has to fetch what it shows. -/
def Fetches : Plugin → Prop
  | .form c => c.Fetches
  | .event _ => False

theorem start_respects (p : Plugin) (ctx : CallContext) :
    Respects (Bench.Twin j j') (p.start ctx) :=
  twin_benchwork.start p ctx

theorem execute_respects (p : Plugin) (ctx : CallContext) (q : ActionRequest) :
    Respects (Bench.Twin j j') (p.execute ctx q) :=
  twin_benchwork.execute p ctx q

/-- Whatever a plugin shows, it only reads. -/
theorem render_ends (p : Plugin) (ctx : CallContext) (b : Bench) :
    (p.render ctx).Ends b (fun _ b' => b.Shown b') fun _ b' => b.Shown b' := by
  cases p with
  | form c =>
      refine (ends_bind _ _).mpr ?_
      exact (FormConfig.form_ends c ctx b).mono (fun _ _ h => h) fun _ _ h => h
  | event c => exact .refl b

theorem render_respects {p : Plugin} (hp : ¬ p.Fetches) (ctx : CallContext) :
    Respects (Bench.Twin j j') (p.render ctx) := by
  refine twin_benchwork.render p ctx fun c hc => ?_
  subst hc
  exact FormConfig.form_respects hp ctx

end Plugin

end Clearance
