import Clearance.Proofs.Engine.Liveness
import Clearance.Proofs.Engine.Registration

/-!
# Clearance — Proofs — Engine — Where the instances of a run come from

* `Engine.Made`: an instance is made of a definition somewhere in a run.
* `Engine.made_snoc`: in a run that goes on by one operation it was made before, or is just now.
* `Engine.Made.descends`: an instance that was made is there in the end, with its nodes.
* `Engine.exists_made`: no instance comes from anywhere else.
-/

namespace Clearance

namespace Engine

open WorkflowStore Workshop

theorem after_append_cons (before rest : List Op) (op : Op) (e : Engine) :
    after (before ++ op :: rest) e = after rest (op.perform (after before e)).2 := by
  rw [after, List.foldl_append]
  rfl

/-- Every engine that a run comes to is steady. -/
theorem Steady.after {e : Engine} (h : e.Steady) (ops : List Op) : (after ops e).Steady := by
  induction ops using List.reverseRecOn with
  | nil => exact h
  | append_singleton ops op ih =>
      rw [after_append]
      exact ih.effect (effect_perform ih op)

/-- The operation creates an instance of the definition, and succeeds with `c`. -/
def Op.Makes (e : Engine) (kind : InstanceKind) (d : WorkflowDefinition) (globalContext : Context)
    (c : Created) (op : Op) : Prop :=
  op = .create kind d globalContext ∧ ((createInstance kind d globalContext).go e).1 = .ok c

/-- Somewhere in the run `ops` from `e` the instance with its nodes was made of the definition. -/
def Made (e : Engine) (ops : List Op) (kind : InstanceKind) (d : WorkflowDefinition)
    (globalContext : Context) (c : Created) : Prop :=
  ∃ before op rest, ops = before ++ op :: rest ∧ op.Makes (after before e) kind d globalContext c

variable {e : Engine} {ops : List Op} {op : Op} {kind : InstanceKind} {d : WorkflowDefinition}
  {globalContext : Context} {c : Created}

/-- An operation that makes an instance founds it. -/
theorem Op.Makes.founded (h : op.Makes e kind d globalContext c) (he : e.Steady) :
    Founded c e (op.perform e).2 ∧ c = e.drafted kind d globalContext := by
  obtain ⟨rfl, hanswer⟩ := h
  obtain ⟨e', hgo⟩ : ∃ e', (createInstance kind d globalContext).go e = (.ok c, e') :=
    ⟨_, Prod.ext hanswer rfl⟩
  have hends := createInstance_ends he.unfaulted he.coherent kind d globalContext
  rw [Op.perform, hgo]
  exact (Act.ends_iff.mp hends).1 c e' hgo

theorem made_snoc :
    Made e (ops ++ [op]) kind d globalContext c ↔
      Made e ops kind d globalContext c ∨ op.Makes (after ops e) kind d globalContext c := by
  constructor
  · rintro ⟨before, op', rest, hops, hmakes⟩
    rcases List.eq_nil_or_concat rest with rfl | ⟨rest, last, rfl⟩
    · obtain ⟨rfl, hlast⟩ := List.append_inj' hops rfl
      obtain rfl := (List.singleton_inj.mp hlast)
      exact .inr hmakes
    · rw [List.concat_eq_append, ← List.cons_append, ← List.append_assoc] at hops
      exact .inl ⟨before, op', rest, (List.append_inj' hops rfl).1, hmakes⟩
  · rintro (⟨before, op', rest, rfl, hmakes⟩ | hmakes)
    · exact ⟨before, op', rest ++ [op], by rw [List.append_assoc, List.cons_append], hmakes⟩
    · exact ⟨ops, op, [], rfl, hmakes⟩

theorem Descends.after (h : Descends c e) (he : e.Steady) (ops : List Op) :
    Descends c (after ops e) := by
  induction ops using List.reverseRecOn with
  | nil => exact h
  | append_singleton ops op ih =>
      rw [after_append]
      exact ih.effect (effect_perform (he.after ops) op)

/-- **Nothing is lost.** An instance that was made in a run is there in the end. -/
theorem Made.descends (h : Made e ops kind d globalContext c) (he : e.Steady) :
    Descends c (Engine.after ops e) := by
  obtain ⟨before, op, rest, rfl, hmakes⟩ := h
  have hbefore := he.after before
  rw [after_append_cons]
  exact (hmakes.founded hbefore).1.descends.after
    (hbefore.effect (effect_perform hbefore op)) rest

/-- Only a creation adds an instance. -/
theorem Effect.peopled {e' : Engine} (h : Effect e op e') {i : InstanceId} {x' : WorkflowInstance}
    (hx' : e'.workflows.instances.get? i = some x') :
    (∃ x, e.workflows.instances.get? i = some x) ∨
      ∃ kind d globalContext, op = .create kind d globalContext := by
  cases h with
  | created _ _ => exact .inr ⟨_, _, _, rfl⟩
  | uncreated _ _ => exact .inr ⟨_, _, _, rfl⟩
  | activated _ => exact .inl ⟨x', hx'⟩
  | served _ _ => exact .inl ⟨x', hx'⟩
  | advanced hop _ ha => exact .inl ((hop.rest.1 ▸ ha.workflows).peopled hx')
  | refused _ _ hs _ => exact .inl (hs.peopled hx')
  | idle => exact .inl ⟨x', hx'⟩
  | outside _ _ => exact .inl ⟨x', hx'⟩
  | discarded _ _ => exact .inl ⟨x', hx'⟩

/-- An instance that an operation leaves was there before, or it was made just now. -/
theorem exists_makes (he : e.Steady) {i : InstanceId} {x' : WorkflowInstance}
    (hx' : (op.perform e).2.workflows.instances.get? i = some x') :
    (∃ x, e.workflows.instances.get? i = some x) ∨
      ∃ kind d globalContext c, op.Makes e kind d globalContext c ∧ c.inst.id = i := by
  rcases (effect_perform he op).peopled hx' with hold | ⟨kind, d, globalContext, rfl⟩
  · exact .inl hold
  have hcreating := createInstance_creating he.unfaulted kind d globalContext
  rw [Op.perform] at hx'
  rcases hgo : (createInstance kind d globalContext).go e with ⟨r, e'⟩
  rw [hgo] at hcreating hx'
  cases hcreating with
  | invalid _ => exact .inl ⟨x', hx'⟩
  | conflicting _ _ _ => exact .inl ⟨x', hx'⟩
  | aborted _ _ _ _ => exact .inl ⟨x', hx'⟩
  | @founded _ c _ _ _ _ _ =>
      rcases Table.of_get?_insert hx' with ⟨rfl, -⟩ | ⟨-, hx⟩
      · exact .inr ⟨kind, d, globalContext, c, ⟨rfl, by rw [hgo]⟩, rfl⟩
      · exact .inl ⟨x', hx⟩

/-- **Where an instance comes from.** In a run that begins without instances, each was made. -/
theorem exists_made (he : e.Steady) (hnone : ∀ i, e.workflows.instances.get? i = none)
    {i : InstanceId} {x : WorkflowInstance}
    (hx : (Engine.after ops e).workflows.instances.get? i = some x) :
    ∃ kind d globalContext c, Made e ops kind d globalContext c ∧ c.inst.id = i := by
  induction ops using List.reverseRecOn generalizing x with
  | nil => exact nomatch (hnone i).symm.trans hx
  | append_singleton ops op ih =>
      rw [after_append] at hx
      rcases exists_makes (he.after ops) hx with ⟨y, hy⟩ | ⟨kind, d, globalContext, c, hmakes, hid⟩
      · obtain ⟨kind, d, globalContext, c, hmade, hid⟩ := ih hy
        exact ⟨kind, d, globalContext, c, made_snoc.mpr (.inl hmade), hid⟩
      · exact ⟨kind, d, globalContext, c, made_snoc.mpr (.inr hmakes), hid⟩

end Engine

end Clearance
