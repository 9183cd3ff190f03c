import Clearance.Proofs.Definition.Order
import Mathlib.Data.List.Perm.Basic

/-!
# Clearance — Proofs — Definition — Dependency order

A walk finishes a template once everything that comes after it is finished, unless the template comes
after itself.

* `WorkflowDefinition.Forward`: a list in which every template stands before those that come next
  after it.
* `WorkflowDefinition.Walk.Laid`: what a walk without cycles keeps to.  On its stack, above a template
  that is open, stands all that is to be finished before it.
* `WorkflowDefinition.perm_dependencyOrder`, `WorkflowDefinition.forward_dependencyOrder`: the order
  lists every template once, and without cycles it is forward.
* `WorkflowDefinition.sort?`: the sort that finds out about cycles by itself.
* `WorkflowDefinition.sort?_eq_some_iff`: it answers the dependency order, and does so if and only if
  no template depends on itself.
-/

namespace Clearance

namespace WorkflowDefinition

variable {d : WorkflowDefinition} {a b : TemplateId} {next : TemplateId → List TemplateId}
  {ids : List TemplateId}

/-- `b` comes after `a`, at once or later. -/
def After (next : TemplateId → List TemplateId) : TemplateId → TemplateId → Prop :=
  Relation.TransGen fun a b => b ∈ next a

theorem after_dependents : After d.dependents a b ↔ Relation.TransGen d.Precedes a b := by
  simp only [After, mem_dependents]

/-! ### Forward lists -/

/-- Each template stands before all that come next after it. -/
def Forward (next : TemplateId → List TemplateId) : List TemplateId → Prop
  | [] => True
  | a :: rest => (∀ b ∈ next a, b ∈ rest) ∧ Forward next rest

theorem Forward.mem {order : List TemplateId} (h : Forward next order) (ha : a ∈ order)
    (hb : b ∈ next a) : b ∈ order := by
  induction order with
  | nil => cases ha
  | cons c rest ih =>
      rcases List.mem_cons.mp ha with rfl | ha
      · exact List.mem_cons_of_mem _ (h.1 b hb)
      · exact List.mem_cons_of_mem _ (ih h.2 ha)

theorem Forward.idxOf_lt {order : List TemplateId} (h : Forward next order) (hd : order.Nodup)
    (ha : a ∈ order) (hb : b ∈ next a) : order.idxOf a < order.idxOf b := by
  induction order with
  | nil => cases ha
  | cons c rest ih =>
      obtain ⟨hc, hrest⟩ := List.nodup_cons.mp hd
      -- what comes next after a template is not the first of the list
      have hcb : b ∈ rest → c ≠ b := fun hbr hcb => hc (hcb ▸ hbr)
      rcases List.mem_cons.mp ha with rfl | ha
      · rw [List.idxOf_cons_self, List.idxOf_cons_ne _ (hcb (h.1 b hb))]
        exact Nat.succ_pos _
      · have hca : c ≠ a := fun hca => hc (hca ▸ ha)
        rw [List.idxOf_cons_ne _ hca, List.idxOf_cons_ne _ (hcb (h.2.mem ha hb))]
        exact Nat.succ_lt_succ (ih h.2 hrest ha)

/-- Where every template stands before all that come next after it, none comes after itself. -/
theorem not_after_self {order : List TemplateId}
    (h : ∀ a ∈ order, ∀ b ∈ next a, b ∈ order ∧ order.idxOf a < order.idxOf b) (ha : a ∈ order) :
    ¬ After next a a := by
  have hlt : ∀ b, After next a b → b ∈ order ∧ order.idxOf a < order.idxOf b := by
    intro b hab
    induction hab with
    | single hb => exact h a ha _ hb
    | tail _ hc ih =>
        obtain ⟨hmem, hbc⟩ := h _ ih.1 _ hc
        exact ⟨hmem, ih.2.trans hbc⟩
  exact fun haa => (hlt a haa).2.false

/-! ### What walks lay down -/

/-- What was discovered stays discovered. -/
theorem explore_undiscovered (w : Walk) (stack : List TemplateId) :
    (explore next w stack).undiscovered ⊆ w.undiscovered :=
  explore_keeps (I := fun v _ => v.undiscovered ⊆ w.undiscovered)
    (fun _ _ _ h _ => List.Subset.trans List.erase_subset h) (fun _ _ _ h _ => h)
    (fun _ _ _ h _ _ => h) w stack (List.Subset.refl _)

namespace Walk

variable {w : Walk} {top : TemplateId} {rest stack : List TemplateId}

/-- A walk finishes templates of `ids` only, and each of them once. -/
structure Tidy (ids : List TemplateId) (w : Walk) (stack : List TemplateId) : Prop where
  known : ∀ a, w.Taken stack a → a ∈ ids
  once : w.finished.Nodup

theorem Tidy.explore (hnext : ∀ a, ∀ b ∈ next a, b ∈ ids) (h : w.Tidy ids stack) :
    Tidy ids (explore next w stack) [] := by
  refine explore_keeps ?_ ?_ ?_ w stack h
  · intro w top rest h _
    refine ⟨fun a ha => ?_, h.once⟩
    rcases ha with ha | ha
    · exact h.known a (.inl ha)
    · rcases List.mem_append.mp ha with ha | ha
      · exact hnext top a (List.mem_filter.mp (List.mem_reverse.mp ha)).1
      · exact h.known a (.inr ha)
  · intro w top rest h _
    exact ⟨fun a ha => h.known a (ha.imp_right (List.mem_cons_of_mem _)), h.once⟩
  · intro w top rest h _ hf
    exact ⟨fun a ha => h.known a (taken_finish.mp ha), List.nodup_cons.mpr ⟨hf, h.once⟩⟩

/-- What stands on the stack above the topmost `a`. -/
def above (a : TemplateId) (stack : List TemplateId) : List TemplateId :=
  stack.takeWhile fun x => !decide (x = a)

@[simp] theorem above_self : above a (a :: rest) = [] := by
  simp [above]

theorem above_of_ne (h : top ≠ a) : above a (top :: rest) = top :: above a rest := by
  simp [above, h]

theorem above_append {new : List TemplateId} (h : a ∉ new) :
    above a (new ++ stack) = new ++ above a stack := by
  refine List.takeWhile_append_of_pos fun x hx => ?_
  have hxa : x ≠ a := fun hxa => h (hxa ▸ hx)
  simp [hxa]

/-- A template is open from when it is discovered until it is finished.  Above an open template stand
only templates that come after it, among them all that come next and are not finished yet. -/
structure Laid (next : TemplateId → List TemplateId) (w : Walk) (stack : List TemplateId) :
    Prop where
  forward : Forward next w.finished
  later : ∀ a ∈ stack, a ∉ w.undiscovered → a ∉ w.finished → ∀ b ∈ above a stack, After next a b
  ahead : ∀ a ∈ stack, a ∉ w.undiscovered → a ∉ w.finished → ∀ b ∈ next a,
    b ∈ w.finished ∨ b ∈ above a stack

/-- The top of the stack is discovered.  What comes next and is open would come before it, too. -/
theorem Laid.discover (hacyclic : ∀ a, ¬ After next a a) (hnext : ∀ a, ∀ b ∈ next a, b ∈ ids)
    (hs : Steady next ids w (top :: rest)) (h : w.Laid next (top :: rest)) :
    Laid next { w with undiscovered := w.undiscovered.erase top }
      (((next top).filter ((w.undiscovered.erase top).contains ·)).reverse ++ top :: rest) := by
  have hnew : ∀ {x}, x ∈ ((next top).filter ((w.undiscovered.erase top).contains ·)).reverse ↔
      x ∈ next top ∧ x ∈ w.undiscovered.erase top := by
    intro x
    rw [List.mem_reverse, List.mem_filter, List.contains_iff_mem]
  have hold : ∀ {x}, x ≠ top → x ∉ w.undiscovered.erase top → x ∉ w.undiscovered :=
    fun hne hno hmem => hno ((List.mem_erase_of_ne hne).mpr hmem)
  generalize ((next top).filter ((w.undiscovered.erase top).contains ·)).reverse = new at hnew ⊢
  -- an open template is none of those that were put on the stack just now
  have hopen : ∀ {a}, a ∈ new ++ top :: rest → a ∉ w.undiscovered.erase top →
      a ∈ top :: rest ∧ above a (new ++ top :: rest) = new ++ above a (top :: rest) := by
    intro a ha hno
    have hanew : a ∉ new := fun hmem => hno (hnew.mp hmem).2
    exact ⟨(List.mem_append.mp ha).resolve_left hanew, above_append hanew⟩
  refine ⟨h.forward, fun a ha hno hf b hb => ?_, fun a ha hno hf b hb => ?_⟩
  · obtain ⟨ha, habove⟩ := hopen ha hno
    rw [habove] at hb
    by_cases he : a = top
    · subst he
      rw [above_self, List.append_nil] at hb
      exact .single (hnew.mp hb).1
    · have hlater := h.later a ha (hold he hno) hf
      rcases List.mem_append.mp hb with hb | hb
      · exact (hlater top (by simp [above_of_ne (Ne.symm he)])).tail (hnew.mp hb).1
      · exact hlater b hb
  · obtain ⟨ha, habove⟩ := hopen ha hno
    rw [habove]
    by_cases he : a = top
    · subst he
      by_cases hleft : b ∈ w.undiscovered.erase a
      · exact .inr (List.mem_append_left _ (hnew.mpr ⟨hb, hleft⟩))
      · have hba : b ≠ a := fun hba => hacyclic a (.single (hba ▸ hb))
        refine .inl (by_contra fun hbf => ?_)
        -- an open template that comes next stands below, so the top comes after it
        have hbs : b ∈ a :: rest :=
          (hs.taken b (hnext a b hb) (hold hba hleft)).resolve_left hbf
        have hafter : After next b a :=
          h.later b hbs (hold hba hleft) hbf a (by simp [above_of_ne (Ne.symm hba)])
        exact hacyclic b (hafter.tail hb)
    · exact (h.ahead a ha (hold he hno) hf b hb).imp_right (List.mem_append_right _)

/-- Once the top of the stack is finished, it may go. -/
theorem Laid.pop {v : Walk} (h : w.Laid next (top :: rest)) (hu : v.undiscovered = w.undiscovered)
    (hf : top ∈ v.finished) (hsub : w.finished ⊆ v.finished) (hforward : Forward next v.finished) :
    v.Laid next rest := by
  have hold : ∀ {a}, a ∈ rest → a ∉ v.undiscovered → a ∉ v.finished →
      a ∈ top :: rest ∧ a ∉ w.undiscovered ∧ a ∉ w.finished ∧
        above a (top :: rest) = top :: above a rest := by
    intro a ha hno hnof
    refine ⟨List.mem_cons_of_mem _ ha, hu ▸ hno, fun hmem => hnof (hsub hmem), above_of_ne ?_⟩
    rintro rfl
    exact hnof hf
  refine ⟨hforward, fun a ha hno hnof b hb => ?_, fun a ha hno hnof b hb => ?_⟩
  · obtain ⟨ha, hno, hnof, habove⟩ := hold ha hno hnof
    exact h.later a ha hno hnof b (habove ▸ List.mem_cons_of_mem _ hb)
  · obtain ⟨ha, hno, hnof, habove⟩ := hold ha hno hnof
    rcases h.ahead a ha hno hnof b hb with hbf | hbs
    · exact .inl (hsub hbf)
    · rw [habove] at hbs
      rcases List.mem_cons.mp hbs with rfl | hbs
      · exact .inl hf
      · exact .inr hbs

/-- The top of the stack is finished when all that comes next is. -/
theorem Laid.finish (h : w.Laid next (top :: rest)) (hno : top ∉ w.undiscovered)
    (hf : top ∉ w.finished) : Laid next { w with finished := top :: w.finished } rest := by
  refine h.pop rfl List.mem_cons_self (List.subset_cons_self _ _) ⟨fun b hb => ?_, h.forward⟩
  have hahead := h.ahead top List.mem_cons_self hno hf b hb
  rw [above_self] at hahead
  exact hahead.resolve_right List.not_mem_nil

theorem Laid.explore (hacyclic : ∀ a, ¬ After next a a) (hnext : ∀ a, ∀ b ∈ next a, b ∈ ids)
    (hs : Steady next ids w stack) (h : w.Laid next stack) : Laid next (explore next w stack) [] := by
  refine (explore_keeps (I := fun w stack => Steady next ids w stack ∧ w.Laid next stack)
    ?_ ?_ ?_ w stack ⟨hs, h⟩).2
  · intro w top rest h _
    exact ⟨h.1.discover, h.2.discover hacyclic hnext h.1⟩
  · intro w top rest h hf
    exact ⟨h.1.drop hf, h.2.pop rfl hf (List.Subset.refl _) h.2.forward⟩
  · intro w top rest h hno hf
    exact ⟨h.1.finish hno, h.2.finish hno hf⟩

end Walk

/-! ### All templates -/

/-- Walks from one template after the other, unless it was discovered before. -/
def sweep (next : TemplateId → List TemplateId) (l : List TemplateId) (w : Walk) : Walk :=
  l.foldl (fun w id => if id ∈ w.undiscovered then explore next w [id] else w) w

theorem dependencyOrder_eq (d : WorkflowDefinition) :
    d.dependencyOrder = (sweep d.dependents d.ids ⟨d.ids, []⟩).finished :=
  rfl

/-- What the walks keep, the sweep keeps. -/
theorem sweep_keeps {I : Walk → Prop} {l : List TemplateId}
    (hwalk : ∀ w, ∀ id ∈ l, I w → id ∈ w.undiscovered → I (explore next w [id])) {w : Walk}
    (h : I w) : I (sweep next l w) := by
  induction l generalizing w with
  | nil => exact h
  | cons id rest ih =>
      have hrest := @ih fun w k hk => hwalk w k (List.mem_cons_of_mem _ hk)
      rw [sweep, List.foldl_cons]
      split
      · rename_i hid
        exact hrest (hwalk w id List.mem_cons_self h hid)
      · exact hrest h

/-- A walk may start at a template that is not discovered. -/
theorem Walk.Steady.enter {w : Walk} (h : w.Steady next ids []) (ha : a ∈ w.undiscovered) :
    w.Steady next ids [a] where
  distinct := h.distinct
  apart := h.apart
  taken b hb hno := (h.taken b hb hno).imp_right nofun
  ahead b hb hno c hc hcids := by
    rcases hb with hb | hb
    · exact (h.ahead b (.inl hb) hno c hc hcids).imp_right nofun
    · exact absurd (List.mem_singleton.mp hb ▸ ha) hno

theorem sweep_steady {l : List TemplateId} {w : Walk} (h : w.Steady next ids []) :
    (sweep next l w).Steady next ids [] :=
  sweep_keeps (I := fun w => w.Steady next ids [])
    (fun _ _ _ h hid => explore_steady (h.enter hid)) h

theorem sweep_tidy (hnext : ∀ a, ∀ b ∈ next a, b ∈ ids) {l : List TemplateId} (hl : l ⊆ ids)
    {w : Walk} (h : w.Tidy ids []) : (sweep next l w).Tidy ids [] := by
  refine sweep_keeps (I := fun w => w.Tidy ids []) (fun w id hid h _ => ?_) h
  refine Walk.Tidy.explore hnext ⟨fun a ha => ?_, h.once⟩
  rcases ha with ha | ha
  · exact h.known a (.inl ha)
  · exact List.mem_singleton.mp ha ▸ hl hid

/-- The sweep discovers all that it starts at. -/
theorem sweep_discovers {l : List TemplateId} {w : Walk} (h : w.Steady next ids []) (ha : a ∈ l) :
    a ∉ (sweep next l w).undiscovered := by
  induction l generalizing w with
  | nil => cases ha
  | cons id rest ih =>
      rw [sweep, List.foldl_cons]
      have hkeep : ∀ w, (sweep next rest w).undiscovered ⊆ w.undiscovered := fun w =>
        sweep_keeps (I := fun v => v.undiscovered ⊆ w.undiscovered)
          (fun v k _ hv _ => List.Subset.trans (explore_undiscovered v [k]) hv)
          (List.Subset.refl _)
      split
      · rename_i hid
        have hs := explore_steady (h.enter hid)
        rcases List.mem_cons.mp ha with rfl | ha
        · have hfin := (explore_finishes w [a] (h.enter hid)).1 a (.inr List.mem_cons_self)
          exact fun hno => hs.apart a hfin (hkeep _ hno)
        · exact ih hs ha
      · rename_i hid
        rcases List.mem_cons.mp ha with rfl | ha
        · exact fun hno => hid (hkeep w hno)
        · exact ih h ha

theorem mem_ids_of_dependents (d : WorkflowDefinition) (a : TemplateId) :
    ∀ b ∈ d.dependents a, b ∈ d.ids :=
  fun _ hb => (mem_dependents.mp hb).mem_ids

/-- **The dependency order lists every template once.** -/
theorem perm_dependencyOrder (hd : d.ids.Nodup) : d.dependencyOrder.Perm d.ids := by
  have hsteady : Walk.Steady d.dependents d.ids ⟨d.ids, []⟩ [] := .start hd nofun
  have hs := sweep_steady (l := d.ids) hsteady
  have ht : (sweep d.dependents d.ids ⟨d.ids, []⟩).Tidy d.ids [] :=
    sweep_tidy d.mem_ids_of_dependents (List.Subset.refl _) ⟨fun _ ha => ha.elim nofun nofun, .nil⟩
  refine (List.perm_ext_iff_of_nodup ht.once hd).mpr fun a => ⟨fun ha => ht.known a (.inl ha), ?_⟩
  intro ha
  exact (hs.taken a ha (sweep_discovers hsteady ha)).elim id nofun

/-- **Dependencies come first**, if no template depends on itself. -/
theorem forward_dependencyOrder (hd : d.ids.Nodup) (hacyclic : ∀ a, ¬ After d.dependents a a) :
    Forward d.dependents d.dependencyOrder := by
  have hstart : Walk.Steady d.dependents d.ids ⟨d.ids, []⟩ [] ∧
      Walk.Laid d.dependents ⟨d.ids, []⟩ [] :=
    ⟨.start hd nofun, trivial, nofun, nofun⟩
  refine (sweep_keeps (I := fun w => w.Steady d.dependents d.ids [] ∧ w.Laid d.dependents [])
    (fun w id _ h hid => ?_) hstart).2.forward
  have hs := h.1.enter hid
  refine ⟨explore_steady hs, Walk.Laid.explore hacyclic d.mem_ids_of_dependents hs
    ⟨h.2.forward, fun a ha hno => ?_, fun a ha hno => ?_⟩⟩
  · exact absurd (List.mem_singleton.mp ha ▸ hid) hno
  · exact absurd (List.mem_singleton.mp ha ▸ hid) hno

/-! ### The sort that finds cycles -/

/-- Walks on as `explore` does, and gives up at a template that comes next after itself. -/
def explore? (next : TemplateId → List TemplateId) (w : Walk) (stack : List TemplateId) :
    Option Walk :=
  match stack with
  | [] => some w
  | top :: rest =>
    if top ∈ w.undiscovered then
      if top ∈ next top then none
      else
        let left := w.undiscovered.erase top
        let ahead := (next top).filter (left.contains ·)
        explore? next { w with undiscovered := left } (ahead.reverse ++ top :: rest)
    else if top ∈ w.finished then explore? next w rest
    else explore? next { w with finished := top :: w.finished } rest
termination_by (w.undiscovered.length, stack.length)
decreasing_by
  · rename_i h _
    apply Prod.Lex.left
    simp only [List.length_erase_of_mem h]
    exact Nat.sub_lt (List.length_pos_of_mem h) Nat.one_pos
  · exact Prod.Lex.right _ (by simp)
  · exact Prod.Lex.right _ (by simp)

/-- Goes through an order, and at each template back along the edges: all other templates that it
depends on have to be among the `seen` ones, which came before. -/
def behind (d : WorkflowDefinition) (seen : List TemplateId) : List TemplateId → Bool
  | [] => true
  | a :: rest =>
    (d.ids.filter fun b => (d.dependents b).contains a).all ((a :: seen).contains ·) &&
      d.behind (a :: seen) rest

/-- Sorts the templates, every dependency before its dependents.  A cycle shows in the walk, if a
template depends directly on itself, or when the order that came out is gone through. -/
def sort? (d : WorkflowDefinition) : Option (List TemplateId) := do
  let w ← d.ids.foldlM
    (fun w id => if id ∈ w.undiscovered then explore? d.dependents w [id] else some w)
    (⟨d.ids, []⟩ : Walk)
  if d.behind [] w.finished then some w.finished else none

/-- A walk that does not give up is the plain walk, and met no template that comes next after
itself. -/
theorem explore_of_explore? {w v : Walk} {stack : List TemplateId}
    (h : explore? next w stack = some v) :
    explore next w stack = v ∧ ∀ a ∈ w.undiscovered, a ∉ v.undiscovered → a ∉ next a := by
  fun_induction explore? next w stack with
  | case1 w => 
      cases h
      exact ⟨by rw [explore], fun a ha hno => absurd ha hno⟩
  | case2 => cases h
  | case3 w top rest htop hloop left ahead ih =>
      obtain ⟨hv, hno⟩ := ih h
      refine ⟨by rw [explore, if_pos htop]; exact hv, fun a ha hnov => ?_⟩
      by_cases he : a = top
      · exact he ▸ hloop
      · exact hno a ((List.mem_erase_of_ne he).mpr ha) hnov
  | case4 w top rest htop hf ih =>
      obtain ⟨hv, hno⟩ := ih h
      exact ⟨by rw [explore, if_neg htop, if_pos hf]; exact hv, hno⟩
  | case5 w top rest htop hf ih =>
      obtain ⟨hv, hno⟩ := ih h
      exact ⟨by rw [explore, if_neg htop, if_neg hf]; exact hv, hno⟩

/-- Where no template comes next after itself no walk gives up. -/
theorem explore?_eq_some (hloop : ∀ a, a ∉ next a) (w : Walk) (stack : List TemplateId) :
    explore? next w stack = some (explore next w stack) := by
  fun_induction explore next w stack with
  | case1 w => rw [explore?]
  | case2 w top rest htop left ahead ih => rw [explore?, if_pos htop, if_neg (hloop top)]; exact ih
  | case3 w top rest htop hf ih => rw [explore?, if_neg htop, if_pos hf]; exact ih
  | case4 w top rest htop hf ih => rw [explore?, if_neg htop, if_neg hf]; exact ih

theorem sweep_of_foldlM {l : List TemplateId} {w v : Walk}
    (h : l.foldlM (fun w id => if id ∈ w.undiscovered then explore? next w [id] else some w) w =
      some v) :
    sweep next l w = v ∧ ∀ a ∈ w.undiscovered, a ∉ v.undiscovered → a ∉ next a := by
  induction l generalizing w with
  | nil =>
      cases h
      exact ⟨rfl, fun a ha hno => absurd ha hno⟩
  | cons id rest ih =>
      rw [List.foldlM_cons] at h
      obtain ⟨u, hu, hrest⟩ := Option.bind_eq_some_iff.mp h
      obtain ⟨hv, hno⟩ := ih hrest
      rw [sweep, List.foldl_cons]
      split at hu
      · rename_i hid
        obtain ⟨rfl, hnou⟩ := explore_of_explore? hu
        refine ⟨by rw [if_pos hid]; exact hv, fun a ha hnov => ?_⟩
        by_cases hau : a ∈ (explore next w [id]).undiscovered
        · exact hno a hau hnov
        · exact hnou a ha hau
      · rename_i hid
        cases hu
        exact ⟨by rw [if_neg hid]; exact hv, hno⟩

theorem foldlM_explore? (hloop : ∀ a, a ∉ next a) (l : List TemplateId) (w : Walk) :
    l.foldlM (fun w id => if id ∈ w.undiscovered then explore? next w [id] else some w) w =
      some (sweep next l w) := by
  simp only [explore?_eq_some hloop, ← apply_ite some]
  exact List.foldlM_pure

theorem behind_cons {seen rest : List TemplateId} :
    d.behind seen (a :: rest) = true ↔
      (∀ c ∈ d.ids, a ∈ d.dependents c → c = a ∨ c ∈ seen) ∧ d.behind (a :: seen) rest = true := by
  simp only [behind, Bool.and_eq_true, List.all_eq_true, List.mem_filter, List.contains_iff_mem,
    List.mem_cons, and_imp]

/-- In an order that is gone through to its end a template stands before its dependents. -/
theorem idxOf_lt_of_behind {seen order : List TemplateId} (h : d.behind seen order = true)
    (hd : order.Nodup) (ha : a ∈ d.ids) (hb : b ∈ order) (hab : b ∈ d.dependents a) (hne : a ≠ b) :
    a ∈ seen ∨ order.idxOf a < order.idxOf b := by
  induction order generalizing seen with
  | nil => cases hb
  | cons c rest ih =>
      obtain ⟨hc, hrest⟩ := List.nodup_cons.mp hd
      obtain ⟨hseen, hbehind⟩ := behind_cons.mp h
      rcases List.mem_cons.mp hb with rfl | hb
      · exact .inl ((hseen a ha hab).resolve_left hne)
      · have hcb : c ≠ b := fun hcb => hc (hcb ▸ hb)
        by_cases hca : c = a
        · subst hca
          rw [List.idxOf_cons_self, List.idxOf_cons_ne _ hcb]
          exact .inr (Nat.succ_pos _)
        · rw [List.idxOf_cons_ne _ hca, List.idxOf_cons_ne _ hcb]
          refine (ih hbehind hrest hb).imp (fun hmem => ?_) Nat.succ_lt_succ
          exact (List.mem_cons.mp hmem).resolve_left (Ne.symm hca)

/-- A forward list of all templates is gone through to its end. -/
theorem Forward.behind {seen order : List TemplateId} (h : Forward d.dependents order)
    (hd : order.Nodup) (hall : ∀ a ∈ d.ids, a ∈ seen ∨ a ∈ order) : d.behind seen order = true := by
  induction order generalizing seen with
  | nil => rfl
  | cons a rest ih =>
      refine behind_cons.mpr ⟨fun c hc hac => .inr ((hall c hc).resolve_right fun hmem => ?_),
        ih h.2 (List.nodup_cons.mp hd).2 fun c hc => ?_⟩
      · have hlt := h.idxOf_lt hd hmem hac
        rw [List.idxOf_cons_self] at hlt
        exact Nat.not_lt_zero _ hlt
      · rcases hall c hc with hmem | hmem
        · exact .inl (List.mem_cons_of_mem _ hmem)
        · rcases List.mem_cons.mp hmem with rfl | hmem
          · exact .inl List.mem_cons_self
          · exact .inr hmem

/-- **The sort finds every cycle.** It answers the dependency order if no template depends on itself,
directly or not, and gives up if one does. -/
theorem sort?_eq_some_iff (hd : d.ids.Nodup) {order : List TemplateId} :
    d.sort? = some order ↔ (∀ a, ¬ After d.dependents a a) ∧ d.dependencyOrder = order := by
  have hp := perm_dependencyOrder hd
  have hnodup := hp.nodup_iff.mpr hd
  constructor
  · intro h
    obtain ⟨w, hw, hbehind⟩ := Option.bind_eq_some_iff.mp h
    obtain ⟨rfl, hloop⟩ := sweep_of_foldlM hw
    rw [← dependencyOrder_eq] at hbehind
    split at hbehind
    · rename_i hgone
      have hforward : ∀ a ∈ d.dependencyOrder, ∀ b ∈ d.dependents a, b ∈ d.dependencyOrder ∧
          d.dependencyOrder.idxOf a < d.dependencyOrder.idxOf b := by
        intro a ha b hb
        have haids := hp.mem_iff.mp ha
        have hmem := hp.mem_iff.mpr (d.mem_ids_of_dependents a b hb)
        have hne : a ≠ b := fun hab =>
          hloop a haids (sweep_discovers (.start hd nofun) haids) (hab ▸ hb)
        exact ⟨hmem, (idxOf_lt_of_behind hgone hnodup haids hmem hb hne).resolve_left
          List.not_mem_nil⟩
      refine ⟨fun a haa => ?_, Option.some.inj hbehind⟩
      obtain ⟨c, -, hc⟩ := Relation.TransGen.tail'_iff.mp haa
      exact not_after_self hforward (hp.mem_iff.mpr (d.mem_ids_of_dependents c a hc)) haa
    · cases hbehind
  · rintro ⟨hacyclic, rfl⟩
    have hgone : d.behind [] d.dependencyOrder = true :=
      (forward_dependencyOrder hd hacyclic).behind hnodup fun a ha => .inr (hp.mem_iff.mpr ha)
    rw [sort?, foldlM_explore? fun a ha => hacyclic a (.single ha)]
    exact if_pos hgone

end WorkflowDefinition

end Clearance
