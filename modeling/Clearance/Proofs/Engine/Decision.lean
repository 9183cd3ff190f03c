import Clearance.Proofs.Engine.Pending
import Clearance.Proofs.Engine.Refusal
import Clearance.Proofs.Task.Outcome
import Clearance.Proofs.Text.Case

/-!
# Clearance — Proofs — Engine — Outcomes that definitions name

A definition names the outcome that a dependency requires, and the agency reports the outcome of the
prerequisite.  The one is kept as it is written, the other is raised by the full mapping of Unicode,
and the two are compared up to the case of ASCII letters.

* `ResolvedDependency.isMetBy_upper`: when a node with a raised outcome meets a dependency.
* `Engine.outcome_meets_iff`: so a text that is reported meets the dependencies that name it exactly
  if each of its characters that is not ASCII is its own upper case.
-/

namespace Clearance

/-- A node that is completed with a text in upper case meets a dependency that names the text exactly
if the text has no other letters to raise than those of ASCII. -/
theorem ResolvedDependency.isMetBy_upper {d : ResolvedDependency} {m : WorkflowNode} {s : String}
    (hd : d.outcome = some s) (hc : m.state = .completed) (ho : m.outcome = some (Text.upper s)) :
    d.isMetBy m = true ↔ ∀ c ∈ s.toList, 128 ≤ c.toNat → Text.upperChar c = [c] := by
  rw [isMetBy, hd, ho, hc, ← Text.eqIgnoringAsciiCase_upper]
  rfl

namespace Engine

open WorkflowStore Workshop

/-- **Outcomes by name.** Let the agency report an outcome that is not empty and has no white space
at its ends, and let the task take it.  Once the notification of that is processed at a node that is
neither locked nor at its end, the node is completed, and the dependencies on it that name the very
same outcome are met exactly if each character of it that is not ASCII is its own upper case. -/
theorem outcome_meets_iff {containers notifications : Nat} {e f : Engine}
    (he : Reaches (fun _ _ => True) (ofCapacity containers notifications) e)
    (hf : Reaches (fun _ _ => True) (ofCapacity containers notifications) f) {ctx : CallContext}
    {id : NodeId} {q : ActionRequest} {s : String} (hq : q.Declares s) (ht : Text.trim s = s)
    (hs : s ≠ "") {x : Response} {w : Workshop}
    (hgo : (Workshop.execute ctx id q).go e.workshop = (.ok x, w)) :
    ∃ note, Sends (some note) e.workshop w ∧ note.nodeId = id ∧
      ∀ n, f.workflows.nodes.get? id = some n → n.state ≠ .locked → n.state.isTerminal = false →
        ∃ p f' m, (handle note).go f = (.ok p, f') ∧ f'.workflows.nodes.get? id = some m ∧
          m.state = .completed ∧ m.outcome = some (Text.upper s) ∧
          ∀ d : ResolvedDependency, d.nodeId = id → d.outcome = some s →
            (d.isMet f'.workflows.nodes.get? = true ↔
              ∀ c ∈ s.toList, 128 ≤ c.toNat → Text.upperChar c = [c]) := by
  have hsteady := (steady_ofCapacity containers notifications).reaches he
  have hsteady' := (steady_ofCapacity containers notifications).reaches hf
  obtain ⟨note, hsends, rfl, hl, ho⟩ := announces_decision hsteady.coherent hq ht hs hgo
  refine ⟨note, hsends, rfl, fun n hn hlocked hopen => ?_⟩
  have htakes : f.Takes note n (n.advance .completed note) :=
    .of_found hsteady'.sound hn (n.take?_of_open hlocked hopen hl (by decide))
  obtain ⟨y, calls, f', -, hhandled, hfound⟩ := htakes.carried hsteady'
  have hout : (n.advance .completed note).outcome = some (Text.upper s) := by
    rw [WorkflowNode.advance, if_pos rfl, ho]
    rfl
  refine ⟨_, f', _, hhandled, hfound, rfl, hout, fun d hd hds => ?_⟩
  rw [ResolvedDependency.isMet, hd, hfound]
  exact ResolvedDependency.isMetBy_upper hds rfl hout

/-- A form that the agency decides on, and another one for when its decision is as the definition
names it. -/
def appraisal : WorkflowDefinition where
  name := "appraisal"
  description := none
  templates := [
    { NodeTemplate.ofKind ⟨"decide"⟩ .simpleForm with
      config := .obj [("formId", .str "F"), ("requiresReview", .bool true)] },
    { (NodeTemplate.ofKind ⟨"release"⟩ .simpleForm).after ⟨"decide"⟩ (some "gewährt") with
      config := .obj [("formId", .str "G")] }]

theorem appraisal_valid : appraisal.validate = .ok [⟨"decide"⟩, ⟨"release"⟩] := by cbv

/-- An engine in which the first form is submitted, and its review awaited. -/
def appraised : Engine :=
  after [.create .consignment appraisal {}, .deliver,
    .execute {} ⟨"$1-decide"⟩ ⟨"submit", .null⟩, .deliver] (ofCapacity 1 1)

/-- The review of the first form is completed with this decision. -/
def deciding (decision : String) : ActionRequest :=
  ⟨"review_complete", .obj [("decision", .str decision)]⟩

/-- A decision in ASCII letters is recognized, whatever their case. -/
theorem outcome_meets_iff_granted :
    ∃ note p f', note.nodeId = ⟨"$1-decide"⟩ ∧ (handle note).go appraised = (.ok p, f') ∧
      (⟨⟨"$1-decide"⟩, ⟨"decide"⟩, some "granted"⟩ : ResolvedDependency).isMet
        f'.workflows.nodes.get? = true := by
  have hrun :
      (appraised.workflows.nodes.get? ⟨"$1-decide"⟩).map (·.state) = some .inProgress ∧
        ((Workshop.execute {} ⟨"$1-decide"⟩ (deciding "granted")).go
          appraised.workshop).1.toOption.isSome = true := by
    simp only [appraised, after, List.foldl_cons, List.foldl_nil, Op.perform,
      createInstance_of_valid appraisal_valid]
    decide +kernel
  obtain ⟨hstate, hanswers⟩ := hrun
  obtain ⟨n, hn, hprogress⟩ := Option.map_eq_some_iff.mp hstate
  have hascii : ∀ c ∈ "granted".toList, 128 ≤ c.toNat → Text.upperChar c = [c] :=
    Text.eqIgnoringAsciiCase_upper.mp (by decide +kernel)
  have hreach : Reaches (fun _ _ => True) (ofCapacity 1 1) appraised :=
    .step (.step (.step (.step .refl _ trivial) _ trivial) _ trivial) _ trivial
  rcases hgo : (Workshop.execute {} ⟨"$1-decide"⟩ (deciding "granted")).go appraised.workshop with
    ⟨_ | x, w⟩
  · rw [hgo] at hanswers
    cases hanswers
  · obtain ⟨note, -, hid, hprocessed⟩ := outcome_meets_iff (s := "granted") hreach hreach
      (.review rfl rfl) (by decide) (by decide) hgo
    obtain ⟨p, f', -, hhandled, -, -, -, hmet⟩ :=
      hprocessed n hn (by rw [hprogress]; decide) (by rw [hprogress]; rfl)
    exact ⟨note, p, f', hid, hhandled, (hmet _ rfl rfl).mpr hascii⟩

/-- The decision is the very text that the definition names.  It is recorded with all its letters
raised, and the form that waits for it stays locked. -/
theorem umlaut_not_met :
    ∃ e m n d, e = after [.execute {} ⟨"$1-decide"⟩ (deciding "gewährt"), .deliver] appraised ∧
      e.workflows.nodes.get? ⟨"$1-decide"⟩ = some m ∧ m.state = .completed ∧
      m.outcome = some "GEWÄHRT" ∧
      e.workflows.nodes.get? ⟨"$1-release"⟩ = some n ∧ n.state = .locked ∧
      n.dependencies = [d] ∧ d.nodeId = ⟨"$1-decide"⟩ ∧ d.outcome = some "gewährt" ∧
      d.isMet e.workflows.nodes.get? = false := by
  have hrun :
      let e := after [.execute {} ⟨"$1-decide"⟩ (deciding "gewährt"), .deliver] appraised
      let d : ResolvedDependency := ⟨⟨"$1-decide"⟩, ⟨"decide"⟩, some "gewährt"⟩
      (e.workflows.nodes.get? ⟨"$1-decide"⟩).map (fun m => (m.state, m.outcome)) =
          some (.completed, some "GEWÄHRT") ∧
        (e.workflows.nodes.get? ⟨"$1-release"⟩).map (fun n => (n.state, n.dependencies)) =
          some (.locked, [d]) ∧
        d.isMet e.workflows.nodes.get? = false := by
    simp only [appraised, after, List.foldl_cons, List.foldl_nil, Op.perform,
      createInstance_of_valid appraisal_valid]
    decide +kernel
  obtain ⟨hdecide, hrelease, hno⟩ := hrun
  obtain ⟨m, hm, hshows⟩ := Option.map_eq_some_iff.mp hdecide
  obtain ⟨n, hn, hshows'⟩ := Option.map_eq_some_iff.mp hrelease
  obtain ⟨hc, ho⟩ := Prod.mk.inj hshows
  obtain ⟨hl, hd⟩ := Prod.mk.inj hshows'
  exact ⟨_, m, n, _, rfl, hm, hc, ho, hn, hl, hd, rfl, rfl, hno⟩

end Engine

end Clearance
