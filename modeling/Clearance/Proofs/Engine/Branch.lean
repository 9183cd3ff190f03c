import Clearance.Proofs.Engine.Founding
import Clearance.Proofs.Text.Case

/-!
# Clearance — Proofs — Engine — Branches

A workflow branches where nodes wait for different outcomes of the same prerequisite.  The outcome is
written when the prerequisite is completed, and never again, so it decides the branch for good.

* `WorkflowNode.Awaits`: a node that does nothing until a prerequisite has an outcome.
* `Engine.Gating.settled`: such a node is unlocked only when that outcome is there.
* `Engine.Settled.onward`, `Engine.Settled.agree`: it stays there, and no other one is.
* `Engine.branches_exclude`: so at most one of two branches is ever unlocked in a run.
-/

namespace Clearance

/-- The node requires all of its prerequisites, and of this one this outcome. -/
structure WorkflowNode.Awaits (n : WorkflowNode) (prerequisite : NodeId) (outcome : String) :
    Prop where
  mode : n.unlockMode = .all
  edge : ∃ d ∈ n.dependencies, d.nodeId = prerequisite ∧ d.outcome = some outcome

/-- A dependency that names an outcome is met by a completed node with that outcome only. -/
theorem ResolvedDependency.outcome_of_isMet {d : ResolvedDependency} {look : Lookup}
    {wanted : String} (h : d.isMet look = true) (hd : d.outcome = some wanted) :
    ∃ m actual, look d.nodeId = some m ∧ m.state = .completed ∧ m.outcome = some actual ∧
      Text.eqIgnoringAsciiCase wanted actual = true := by
  obtain ⟨m, hm, hcomp, hmet⟩ := completed_of_isMet h
  rw [isMetBy, hd, Bool.and_eq_true] at hmet
  cases hout : m.outcome with
  | none =>
      rw [hout] at hmet
      cases hmet.2
  | some actual =>
      rw [hout] at hmet
      exact ⟨m, actual, hm, hcomp, hout, hmet.2⟩

/-- A node that requires all of its prerequisites is satisfied only if each dependency is met. -/
theorem WorkflowNode.isMet_of_satisfied {n : WorkflowNode} {look : Lookup}
    (h : n.satisfied look = true) (hmode : n.unlockMode = .all) {d : ResolvedDependency}
    (hd : d ∈ n.dependencies) : d.isMet look = true := by
  rw [satisfied, hmode, Bool.or_eq_true, List.isEmpty_iff] at h
  rcases h with hnone | hall
  · rw [hnone] at hd
    cases hd
  · exact List.all_eq_true.mp hall d hd

namespace Engine

/-- The prerequisite is completed, with this outcome up to the case of ASCII letters. -/
def Settled (e : Engine) (prerequisite : NodeId) (outcome : String) : Prop :=
  ∃ m actual, e.workflows.nodes.get? prerequisite = some m ∧ m.state = .completed ∧
    m.outcome = some actual ∧ Text.eqIgnoringAsciiCase outcome actual = true

section Branches

variable {e f : Engine} {n : WorkflowNode} {id prerequisite : NodeId} {s t : String}

/-- A node that awaits an outcome is unlocked only when the outcome is there. -/
theorem Gating.settled (h : e.Gating) (hn : e.workflows.nodes.get? id = some n)
    (ha : n.Awaits prerequisite s) (hl : n.state ≠ .locked) : e.Settled prerequisite s := by
  obtain ⟨d, hd, rfl, hout⟩ := ha.edge
  have hsat : n.satisfied e.workflows.nodes.get? = true := by
    rw [← Bool.not_eq_false]
    exact fun hno => hl ((h.gated id n hn).mpr hno)
  exact ResolvedDependency.outcome_of_isMet (n.isMet_of_satisfied hsat ha.mode hd) hout

/-- A completed node keeps its outcome. -/
theorem Settled.onward (h : e.Settled prerequisite s) (ho : AllOnward e f) :
    f.Settled prerequisite s := by
  obtain ⟨m, actual, hm, hcomp, hout, heq⟩ := h
  obtain ⟨m', hm', hnext⟩ := ho prerequisite m hm
  obtain rfl := hnext.terminal (by rw [hcomp]; rfl)
  exact ⟨m', actual, hm', hcomp, hout, heq⟩

/-- The outcomes that a prerequisite has are all equal up to case. -/
theorem Settled.agree (hs : e.Settled prerequisite s) (ht : e.Settled prerequisite t) :
    Text.eqIgnoringAsciiCase s t = true := by
  obtain ⟨m, actual, hm, -, hout, heq⟩ := hs
  obtain ⟨m', actual', hm', -, hout', heq'⟩ := ht
  obtain rfl := Option.some.inj (hm.symm.trans hm')
  obtain rfl := Option.some.inj (hout.symm.trans hout')
  exact Text.eqIgnoringAsciiCase_trans heq (Text.eqIgnoringAsciiCase_symm heq')

theorem Gating.after (h : e.Gating) {ops : List Op} (hops : ∀ op ∈ ops, op.QueuedOnly) :
    (after ops e).Gating := by
  induction ops generalizing e with
  | nil => exact h
  | cons op rest ih =>
      obtain ⟨hop, hrest⟩ := List.forall_mem_cons.mp hops
      exact ih (h.effect hop (effect_perform h.steady op)) hrest

theorem Steady.onward_take (h : e.Steady) (ops : List Op) {i j : Nat} (hij : i ≤ j) :
    AllOnward (Engine.after (ops.take i) e) (Engine.after (ops.take j) e) := by
  have hsplit : ops.take j = ops.take i ++ (ops.take j).drop i := by
    conv_lhs => rw [← List.take_append_drop i (ops.take j), List.take_take, Nat.min_eq_left hij]
  rw [hsplit, Engine.after, Engine.after, List.foldl_append]
  exact (h.after _).onward_after _

end Branches

/-- **Branches exclude each other.** In a run in which only queued notifications are processed, let
two nodes each require all of their prerequisites, and of the same prerequisite outcomes that differ
even up to ASCII case.  Whenever the two are looked at, one of them is locked, and one that is not
has its prerequisite completed with the outcome that it requires. -/
theorem branches_exclude {containers notifications : Nat} {ops : List Op}
    (hops : ∀ op ∈ ops, op.QueuedOnly) {i j : Nat} {e f : Engine}
    (he : e = after (ops.take i) (ofCapacity containers notifications))
    (hf : f = after (ops.take j) (ofCapacity containers notifications)) {x y : NodeId}
    {a b : WorkflowNode} (ha : e.workflows.nodes.get? x = some a)
    (hb : f.workflows.nodes.get? y = some b) {prerequisite : NodeId} {s t : String}
    (has : a.Awaits prerequisite s) (hbt : b.Awaits prerequisite t)
    (hne : Text.eqIgnoringAsciiCase s t = false) :
    (a.state = .locked ∨ b.state = .locked) ∧
      (a.state ≠ .locked → e.Settled prerequisite s) ∧
      (b.state ≠ .locked → f.Settled prerequisite t) := by
  have hstart := gating_ofCapacity containers notifications
  have hgate : ∀ k, (after (ops.take k) (ofCapacity containers notifications)).Gating :=
    fun k => hstart.after fun op hop => hops op (List.mem_of_mem_take hop)
  have hs : a.state ≠ .locked → e.Settled prerequisite s := by
    rw [he] at ha ⊢
    exact (hgate i).settled ha has
  have ht : b.state ≠ .locked → f.Settled prerequisite t := by
    rw [hf] at hb ⊢
    exact (hgate j).settled hb hbt
  refine ⟨?_, hs, ht⟩
  by_contra hboth
  obtain ⟨hla, hlb⟩ := not_or.mp hboth
  -- whichever was seen first, its outcome is there still when the other is seen
  have heq : Text.eqIgnoringAsciiCase s t = true := by
    rcases Nat.le_total i j with hij | hji
    · have ho := hstart.steady.onward_take ops hij
      rw [← he, ← hf] at ho
      exact ((hs hla).onward ho).agree (ht hlb)
    · have ho := hstart.steady.onward_take ops hji
      rw [← he, ← hf] at ho
      exact (hs hla).agree ((ht hlb).onward ho)
  cases hne.symm.trans heq

/-- The wait for a ruling, with one form if it is favourable and another to appeal with. -/
def ruling : WorkflowDefinition where
  name := "ruling"
  description := none
  templates := [
    { NodeTemplate.ofKind ⟨"rule"⟩ .waitForEvent with config := .obj [("event", .str "E")] },
    { (NodeTemplate.ofKind ⟨"release"⟩ .simpleForm).after ⟨"rule"⟩ (some "APPROVED") with
      config := .obj [("formId", .str "R")] },
    { (NodeTemplate.ofKind ⟨"appeal"⟩ .simpleForm).after ⟨"rule"⟩ (some "REJECTED") with
      config := .obj [("formId", .str "A")] }]

theorem ruling_valid : ruling.validate = .ok [⟨"rule"⟩, ⟨"appeal"⟩, ⟨"release"⟩] := by cbv

/-- The ruling comes, and is favourable. -/
def approving : List Op :=
  [.create .consignment ruling {}, .deliver,
    .execute {} ⟨"$1-rule"⟩
      ⟨"event_received", .obj [("event", .str "E"), ("outcome", .str "approved")]⟩,
    .deliver]

/-- The form is ready once the ruling is there, and the appeal is locked then. -/
theorem branches_exclude_approving :
    ∃ a b, (after approving (ofCapacity 1 1)).workflows.nodes.get? ⟨"$1-release"⟩ = some a ∧
      (after approving (ofCapacity 1 1)).workflows.nodes.get? ⟨"$1-appeal"⟩ = some b ∧
      a.state = .ready ∧ b.state = .locked ∧
      (after approving (ofCapacity 1 1)).Settled ⟨"$1-rule"⟩ "APPROVED" := by
  have hrun :
      let look := (after approving (ofCapacity 1 1)).workflows.nodes.get?
      (look ⟨"$1-release"⟩).map (fun n => (n.state, n.unlockMode, n.dependencies)) =
          some (.ready, .all, [⟨⟨"$1-rule"⟩, ⟨"rule"⟩, some "APPROVED"⟩]) ∧
        (look ⟨"$1-appeal"⟩).map (fun n => (n.unlockMode, n.dependencies)) =
          some (.all, [⟨⟨"$1-rule"⟩, ⟨"rule"⟩, some "REJECTED"⟩]) := by
    simp only [approving, after, List.foldl_cons, List.foldl_nil, Op.perform,
      createInstance_of_valid ruling_valid]
    decide +kernel
  obtain ⟨hrelease, happeal⟩ := hrun
  obtain ⟨a, ha, hshows⟩ := Option.map_eq_some_iff.mp hrelease
  obtain ⟨b, hb, hshows'⟩ := Option.map_eq_some_iff.mp happeal
  simp only [Prod.mk.injEq] at hshows hshows'
  obtain ⟨hstate, hmode, hdeps⟩ := hshows
  obtain ⟨hmode', hdeps'⟩ := hshows'
  have has : a.Awaits ⟨"$1-rule"⟩ "APPROVED" :=
    ⟨hmode, _, hdeps ▸ List.mem_singleton_self _, rfl, rfl⟩
  have hbt : b.Awaits ⟨"$1-rule"⟩ "REJECTED" :=
    ⟨hmode', _, hdeps' ▸ List.mem_singleton_self _, rfl, rfl⟩
  have hopen : a.state ≠ .locked := by
    rw [hstate]
    decide
  have hops : ∀ op ∈ approving, op.QueuedOnly := by simp [approving, Op.QueuedOnly]
  obtain ⟨hone, hsettled, -⟩ :=
    branches_exclude (i := 4) (j := 4) hops rfl rfl ha hb has hbt (by decide)
  exact ⟨a, b, ha, hb, hstate, hone.resolve_left hopen, hsettled hopen⟩

end Engine

end Clearance
