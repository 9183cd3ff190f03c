import Clearance.Definition.Order
import Mathlib.Logic.Relation
import Mathlib.Order.WellFounded
import Mathlib.Data.Fintype.EquivFin

/-!
# Clearance — Proofs — Definition — What templates depend on

* `WorkflowDefinition.Precedes`: a template depends directly on another one.
* `WorkflowDefinition.explore_keeps`: what the single moves of a walk keep, the walk keeps.
* `WorkflowDefinition.explore_finishes`: a walk finishes everything that it comes to.
* `WorkflowDefinition.mem_reachable`: what depends on a template, directly or not, is reached from it.
* `WorkflowDefinition.exists_first`: without cycles, of the templates with a property one depends on
  none of the others.
-/

namespace Clearance

namespace WorkflowDefinition

variable {d : WorkflowDefinition} {a b : TemplateId}

/-- The template `b` depends directly on `a`. -/
def Precedes (d : WorkflowDefinition) (a b : TemplateId) : Prop :=
  ∃ t ∈ d.templates, t.id = b ∧ ∃ dep ∈ t.dependsOn, dep.template = a

theorem mem_dependents : b ∈ d.dependents a ↔ d.Precedes a b := by
  simp only [dependents, List.mem_reverse, List.mem_flatMap, List.mem_map, List.mem_filter,
    beq_iff_eq, Precedes]
  constructor
  · rintro ⟨t, ht, dep, ⟨hdep, hid⟩, rfl⟩
    exact ⟨t, ht, rfl, dep, hdep, hid⟩
  · rintro ⟨t, ht, rfl, dep, hdep, hid⟩
    exact ⟨t, ht, dep, ⟨hdep, hid⟩, rfl⟩

theorem Precedes.mem_ids (h : d.Precedes a b) : b ∈ d.ids := by
  obtain ⟨t, ht, rfl, -⟩ := h
  exact List.mem_map_of_mem ht

/-! ### Walks -/

/-- The template is finished, or on the stack to be finished. -/
def Walk.Taken (w : Walk) (stack : List TemplateId) (a : TemplateId) : Prop :=
  a ∈ w.finished ∨ a ∈ stack

/-- What a walk through `ids` along `next` keeps to. -/
structure Walk.Steady (next : TemplateId → List TemplateId) (ids : List TemplateId) (w : Walk)
    (stack : List TemplateId) : Prop where
  distinct : w.undiscovered.Nodup
  apart : ∀ a ∈ w.finished, a ∉ w.undiscovered
  /-- What was discovered is taken. -/
  taken : ∀ a ∈ ids, a ∉ w.undiscovered → w.Taken stack a
  /-- What comes next after a template that was discovered is taken, too. -/
  ahead : ∀ a, w.Taken stack a → a ∉ w.undiscovered → ∀ b ∈ next a, b ∈ ids → w.Taken stack b

namespace Walk

variable {next : TemplateId → List TemplateId} {ids rest : List TemplateId} {w : Walk}
  {top : TemplateId}

theorem Steady.start {stack : List TemplateId} (hd : ids.Nodup) (hs : ∀ a ∈ stack, a ∈ ids) :
    Steady next ids ⟨ids, []⟩ stack where
  distinct := hd
  apart _ h := nomatch h
  taken _ ha hno := absurd ha hno
  ahead a ha hno := by
    rcases ha with ha | ha
    · cases ha
    · exact absurd (hs a ha) hno

/-- The top of the stack is discovered. -/
theorem Steady.discover (h : Steady next ids w (top :: rest)) :
    Steady next ids { w with undiscovered := w.undiscovered.erase top }
      (((next top).filter ((w.undiscovered.erase top).contains ·)).reverse ++ top :: rest) := by
  have hkeep : ∀ {a}, w.Taken (top :: rest) a → Taken
      { w with undiscovered := w.undiscovered.erase top }
      (((next top).filter ((w.undiscovered.erase top).contains ·)).reverse ++ top :: rest) a :=
    fun ha => ha.imp_right (List.mem_append_right _)
  have hleft : ∀ {a}, a ∉ w.undiscovered.erase top → a = top ∨ a ∉ w.undiscovered := by
    intro a ha
    by_cases he : a = top
    · exact .inl he
    · exact .inr fun hmem => ha ((List.mem_erase_of_ne he).mpr hmem)
  have htop : w.Taken (top :: rest) top := .inr List.mem_cons_self
  refine ⟨h.distinct.erase top, fun a ha hmem => ?_, fun a ha hno => ?_,
    fun a ha hno b hb hids => ?_⟩
  · exact h.apart a ha (List.mem_of_mem_erase hmem)
  · rcases hleft hno with rfl | hno
    · exact hkeep htop
    · exact hkeep (h.taken a ha hno)
  · rcases hleft hno with rfl | hno'
    · -- what comes after the top is put on the stack unless it was discovered before
      by_cases hleftb : b ∈ w.undiscovered.erase a
      · refine .inr (List.mem_append_left _ (List.mem_reverse.mpr (List.mem_filter.mpr ⟨hb, ?_⟩)))
        exact List.contains_iff_mem.mpr hleftb
      · rcases hleft hleftb with rfl | hnob
        · exact hkeep htop
        · exact hkeep (h.taken b hids hnob)
    · have hold : w.Taken (top :: rest) a := by
        refine ha.imp_right fun hmem => ?_
        rcases List.mem_append.mp hmem with hnew | hold
        · have hcontains := (List.mem_filter.mp (List.mem_reverse.mp hnew)).2
          exact absurd (List.contains_iff_mem.mp hcontains) hno
        · exact hold
      exact hkeep (h.ahead a hold hno' b hb hids)

theorem Taken.drop {a : TemplateId} (h : w.Taken (top :: rest) a) (hf : top ∈ w.finished) :
    w.Taken rest a := by
  rcases h with ha | ha
  · exact .inl ha
  · rcases List.mem_cons.mp ha with rfl | ha
    · exact .inl hf
    · exact .inr ha

/-- The top of the stack is dropped once it is finished. -/
theorem Steady.drop (h : Steady next ids w (top :: rest)) (hf : top ∈ w.finished) :
    Steady next ids w rest where
  distinct := h.distinct
  apart := h.apart
  taken a ha hno := (h.taken a ha hno).drop hf
  ahead a ha hno b hb hids :=
    (h.ahead a (ha.imp_right (List.mem_cons_of_mem _)) hno b hb hids).drop hf

theorem taken_finish {a : TemplateId} :
    Taken { w with finished := top :: w.finished } rest a ↔ w.Taken (top :: rest) a := by
  simp only [Taken, List.mem_cons]
  tauto

/-- The top of the stack is finished when it is met again. -/
theorem Steady.finish (h : Steady next ids w (top :: rest)) (hno : top ∉ w.undiscovered) :
    Steady next ids { w with finished := top :: w.finished } rest where
  distinct := h.distinct
  apart a ha := by
    rcases List.mem_cons.mp ha with rfl | ha
    · exact hno
    · exact h.apart a ha
  taken a ha hno := taken_finish.mpr (h.taken a ha hno)
  ahead a ha hno b hb hids := taken_finish.mpr (h.ahead a (taken_finish.mp ha) hno b hb hids)

end Walk

section

variable {next : TemplateId → List TemplateId} {ids : List TemplateId}

/-- What every move of a walk keeps, the walk keeps until its stack is empty. -/
theorem explore_keeps {I : Walk → List TemplateId → Prop}
    (discover : ∀ w top rest, I w (top :: rest) → top ∈ w.undiscovered →
      I { w with undiscovered := w.undiscovered.erase top }
        (((next top).filter ((w.undiscovered.erase top).contains ·)).reverse ++ top :: rest))
    (drop : ∀ w top rest, I w (top :: rest) → top ∈ w.finished → I w rest)
    (finish : ∀ w top rest, I w (top :: rest) → top ∉ w.undiscovered → top ∉ w.finished →
      I { w with finished := top :: w.finished } rest)
    (w : Walk) (stack : List TemplateId) (h : I w stack) : I (explore next w stack) [] := by
  fun_induction explore next w stack with
  | case1 w => exact h
  | case2 w top rest htop left ahead ih => exact ih (discover w top rest h htop)
  | case3 w top rest htop hf ih => exact ih (drop w top rest h hf)
  | case4 w top rest htop hf ih => exact ih (finish w top rest h htop hf)

theorem explore_steady {w : Walk} {stack : List TemplateId} (h : Walk.Steady next ids w stack) :
    Walk.Steady next ids (explore next w stack) [] :=
  explore_keeps (fun _ _ _ h _ => h.discover) (fun _ _ _ h hf => h.drop hf)
    (fun _ _ _ h hno _ => h.finish hno) w stack h

/-- **Walks are complete.** A walk finishes all that is on its stack, and with a template what comes
next after it. -/
theorem explore_finishes (w : Walk) (stack : List TemplateId) (h : Walk.Steady next ids w stack) :
    (∀ a, w.Taken stack a → a ∈ (explore next w stack).finished) ∧
      ∀ a ∈ (explore next w stack).finished, ∀ b ∈ next a, b ∈ ids →
        b ∈ (explore next w stack).finished := by
  have hend := explore_steady h
  refine ⟨fun a ha => ?_, fun a ha b hb hids => ?_⟩
  · have htaken : (explore next w stack).Taken [] a :=
      explore_keeps (I := fun w stack => w.Taken stack a)
        (fun _ _ _ h _ => h.imp_right (List.mem_append_right _)) (fun _ _ _ h hf => h.drop hf)
        (fun _ _ _ h _ _ => Walk.taken_finish.mpr h) w stack ha
    exact htaken.elim id nofun
  · exact (hend.ahead a (.inl ha) (hend.apart a ha) b hb hids).elim id nofun

end

/-- What depends on a template, directly or not, is reached from it. -/
theorem mem_reachable (hd : d.ids.Nodup) (h : Relation.TransGen d.Precedes a b) :
    b ∈ d.reachable a := by
  have hsteady : Walk.Steady d.dependents d.ids ⟨d.ids, []⟩ (d.dependents a) :=
    .start hd fun b hb => (mem_dependents.mp hb).mem_ids
  obtain ⟨htaken, hnext⟩ := explore_finishes _ _ hsteady
  induction h with
  | single hb => exact htaken _ (.inr (mem_dependents.mpr hb))
  | tail _ hc ih => exact hnext _ ih _ (mem_dependents.mpr hc) hc.mem_ids

/-- Without cycles, of the templates with a property one depends directly on none of the others. -/
theorem exists_first (hacyclic : ∀ a, ¬ Relation.TransGen d.Precedes a a) {P : TemplateId → Prop}
    (hP : ∃ a ∈ d.ids, P a) :
    ∃ a ∈ d.ids, P a ∧ ∀ b ∈ d.ids, d.Precedes b a → ¬ P b := by
  let before (a b : {a // a ∈ d.ids}) : Prop := Relation.TransGen d.Precedes a b
  have : IsTrans _ before := ⟨fun _ _ _ hab hbc => hab.trans hbc⟩
  have : Std.Irrefl before := ⟨fun a ha => hacyclic a ha⟩
  have hwf : WellFounded before := Finite.wellFounded_of_trans_of_irrefl before
  obtain ⟨a, ha, hPa⟩ := hP
  obtain ⟨⟨b, hb⟩, hPb, hfirst⟩ := hwf.has_min {b | P b.1} ⟨⟨a, ha⟩, hPa⟩
  exact ⟨b, hb, hPb, fun c hc hcb hPc => hfirst ⟨c, hc⟩ hPc (.single hcb)⟩

end WorkflowDefinition

end Clearance
