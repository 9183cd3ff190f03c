import Clearance.Proofs.Definition.Sort
import Clearance.Proofs.Tables

/-!
# Clearance — Proofs — Definition — Cycles

* `WorkflowDefinition.mem_reachable_iff`: a walk reaches what comes after its start and nothing else.
* `WorkflowDefinition.mem_cycleMembers`, `WorkflowDefinition.ascending_cycleMembers`: the members of
  cycles are the templates that come after themselves, in ascending order.
* `WorkflowDefinition.Components`: the templates parted into strongly connected components.
* `WorkflowDefinition.Components.membersOf_eq`: the members of cycles, told by any such parting.
* `WorkflowDefinition.sort?_eq_none_iff`: the sort gives up if and only if a cycle has members.
-/

namespace Clearance

namespace WorkflowDefinition

variable {d : WorkflowDefinition} {a b : TemplateId}

/-! ### What is reached -/

/-- A walk that starts behind a template finds only what comes after it. -/
theorem explore_after {next : TemplateId → List TemplateId} {w : Walk} {stack : List TemplateId}
    (h : ∀ b, w.Taken stack b → After next a b) :
    ∀ b ∈ (explore next w stack).finished, After next a b := by
  suffices ∀ b, (explore next w stack).Taken [] b → After next a b from
    fun b hb => this b (.inl hb)
  refine explore_keeps (I := fun w stack => ∀ b, w.Taken stack b → After next a b) ?_ ?_ ?_ w stack h
  · intro w top rest h _ b hb
    rcases hb with hb | hb
    · exact h b (.inl hb)
    · rcases List.mem_append.mp hb with hb | hb
      · exact (h top (.inr List.mem_cons_self)).tail
          (List.mem_filter.mp (List.mem_reverse.mp hb)).1
      · exact h b (.inr hb)
  · exact fun w top rest h _ b hb => h b (hb.imp_right (List.mem_cons_of_mem _))
  · exact fun w top rest h _ _ b hb => h b (Walk.taken_finish.mp hb)

/-- **Walks are exact.** What a walk from a template's dependents reaches is what comes after it. -/
theorem mem_reachable_iff (hd : d.ids.Nodup) : b ∈ d.reachable a ↔ After d.dependents a b := by
  refine ⟨fun h => explore_after (fun c hc => ?_) b h, fun h => ?_⟩
  · exact hc.elim nofun fun hc => .single hc
  · exact mem_reachable hd (after_dependents.mp h)

theorem mem_ids_of_after (h : After d.dependents a b) : b ∈ d.ids := by
  obtain ⟨c, -, hb⟩ := Relation.TransGen.tail'_iff.mp h
  exact d.mem_ids_of_dependents c b hb

/-! ### The members of cycles -/

theorem mem_cycleMembers (hd : d.ids.Nodup) : a ∈ d.cycleMembers ↔ After d.dependents a a := by
  rw [cycleMembers, List.mem_mergeSort, List.mem_filter, List.contains_iff_mem,
    mem_reachable_iff hd]
  exact ⟨And.right, fun h => ⟨mem_ids_of_after h, h⟩⟩

theorem nodup_cycleMembers (hd : d.ids.Nodup) : d.cycleMembers.Nodup :=
  (List.mergeSort_perm _ _).nodup_iff.mpr (hd.filter _)

theorem ascending_cycleMembers (hd : d.ids.Nodup) :
    d.cycleMembers.Pairwise fun a b => a.text < b.text := by
  have hle := pairwise_mergeSort_text TemplateId.text
    (d.ids.filter fun id => (d.reachable id).contains id)
  refine (hle.and (nodup_cycleMembers hd)).imp fun {a b} ⟨hle, hne⟩ => ?_
  exact Std.lt_of_le_of_ne hle fun h => hne (congrArg TemplateId.mk h)

/-- The sort gives up if and only if some template is on a cycle. -/
theorem sort?_eq_none_iff (hd : d.ids.Nodup) : d.sort? = none ↔ d.cycleMembers ≠ [] := by
  constructor
  · intro h hno
    have hacyclic : ∀ a, ¬ After d.dependents a a := by
      intro a ha
      have hmem := (mem_cycleMembers hd).mpr ha
      rw [hno] at hmem
      cases hmem
    rw [(sort?_eq_some_iff hd).mpr ⟨hacyclic, rfl⟩] at h
    cases h
  · intro h
    obtain ⟨a, ha⟩ := List.exists_mem_of_ne_nil _ h
    refine Option.eq_none_iff_forall_ne_some.mpr fun order horder => ?_
    exact ((sort?_eq_some_iff hd).mp horder).1 a ((mem_cycleMembers hd).mp ha)

/-! ### Components -/

/-- The templates are parted into strongly connected components: two of them are in one component if
each comes after the other one. -/
structure Components (d : WorkflowDefinition) (parts : List (List TemplateId)) : Prop where
  parted : parts.flatten.Perm d.ids
  connected : ∀ c ∈ parts, ∀ a ∈ c, ∀ b ∈ d.ids,
    b ∈ c ↔ a = b ∨ After d.dependents a b ∧ After d.dependents b a

/-- The members of the components that have several of them, or one that depends on itself, in
ascending order. -/
def membersOf (d : WorkflowDefinition) (parts : List (List TemplateId)) : List TemplateId :=
  (parts.filter fun c =>
    decide (1 < c.length) || c.head?.any fun a => (d.dependents a).contains a).flatten.mergeSort
    fun a b => decide (a.text ≤ b.text)

/-- A component has several templates, or one that depends on itself, if and only if its templates
come after themselves. -/
theorem Components.after_self_iff {parts : List (List TemplateId)} (h : d.Components parts)
    (hd : d.ids.Nodup) {c : List TemplateId} (hc : c ∈ parts) (ha : a ∈ c) :
    (1 < c.length ∨ ∃ x, c.head? = some x ∧ x ∈ d.dependents x) ↔ After d.dependents a a := by
  have hids : ∀ b ∈ c, b ∈ d.ids := fun b hb => h.parted.mem_iff.mp (List.mem_flatten_of_mem hc hb)
  have hcd : c.Nodup := (List.nodup_flatten.mp (h.parted.nodup_iff.mpr hd)).1 c hc
  have hconnected := h.connected c hc a ha
  rcases c with _ | ⟨x, _ | ⟨y, rest⟩⟩
  · cases ha
  · obtain rfl := List.mem_singleton.mp ha
    constructor
    · rintro (hlen | ⟨x, hx, hloop⟩)
      · exact absurd hlen (Nat.lt_irrefl 1)
      · cases hx
        exact .single hloop
    · intro haa
      -- what comes next on the way back to `a` is in its component, so it is `a`
      obtain ⟨b, hab, hba⟩ := Relation.TransGen.head'_iff.mp haa
      refine .inr ⟨a, rfl, ?_⟩
      rcases Relation.reflTransGen_iff_eq_or_transGen.mp hba with rfl | hba
      · exact hab
      · have hb : b ∈ [a] :=
          (hconnected b (d.mem_ids_of_dependents a b hab)).mpr (.inr ⟨.single hab, hba⟩)
        exact List.mem_singleton.mp hb ▸ hab
  · refine iff_of_true (.inl (by simp)) ?_
    -- another template of the component comes after `a` and before it
    have hother : ∀ b ∈ x :: y :: rest, b ≠ a → After d.dependents a a := by
      intro b hb hne
      rcases (hconnected b (hids b hb)).mp hb with he | ⟨hab, hba⟩
      · exact absurd he.symm hne
      · exact hab.trans hba
    by_cases hxa : x = a
    · have hxy : x ≠ y := fun hxy => (List.nodup_cons.mp hcd).1 (hxy ▸ List.mem_cons_self)
      exact hother y (by simp) fun hya => hxy (hxa.trans hya.symm)
    · exact hother x List.mem_cons_self hxa

/-- **Any parting into components names the members of cycles.** -/
theorem Components.membersOf_eq {parts : List (List TemplateId)} (h : d.Components parts)
    (hd : d.ids.Nodup) : d.membersOf parts = d.cycleMembers := by
  have hp : (d.membersOf parts).Perm d.cycleMembers := by
    obtain ⟨hnodup, hdisjoint⟩ := List.nodup_flatten.mp (h.parted.nodup_iff.mpr hd)
    refine (List.mergeSort_perm _ _).trans ((List.perm_ext_iff_of_nodup (List.nodup_flatten.mpr
      ⟨fun c hc => hnodup c (List.mem_of_mem_filter hc), hdisjoint.filter _⟩)
      (nodup_cycleMembers hd)).mpr fun a => ?_)
    rw [mem_cycleMembers hd, List.mem_flatten]
    simp only [List.mem_filter, Bool.or_eq_true, decide_eq_true_eq, Option.any_eq_true,
      List.contains_iff_mem]
    constructor
    · rintro ⟨c, ⟨hc, hbig⟩, ha⟩
      exact (h.after_self_iff hd hc ha).mp hbig
    · intro haa
      obtain ⟨c, hc, ha⟩ := List.mem_flatten.mp (h.parted.mem_iff.mpr (mem_ids_of_after haa))
      exact ⟨c, ⟨hc, (h.after_self_iff hd hc ha).mpr haa⟩, ha⟩
  refine hp.eq_of_pairwise (fun a b _ _ hab hba => ?_)
    (pairwise_mergeSort_text TemplateId.text _) (pairwise_mergeSort_text TemplateId.text _)
  exact congrArg TemplateId.mk (String.le_antisymm hab hba)

end WorkflowDefinition

end Clearance
