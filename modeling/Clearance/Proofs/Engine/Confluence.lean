import Clearance.Proofs.Engine.Refusal
import Clearance.Proofs.Workflow.Confluence

/-!
# Clearance — Proofs — Engine — Notifications that are accepted in any order

* `Engine.Accepts`: notifications are handled one after the other and none is refused, with all the
  nodes that they unlock.
* `Engine.Accepts.tally`: what that makes of the workflows.
* `Engine.orders_agree`: two orders in which the same notifications are accepted end with the same
  nodes.
-/

namespace Clearance

namespace Engine

open WorkflowStore Workshop

/-- The engine handles the notifications one after the other and refuses none of them. -/
inductive Accepts (e : Engine) : List Notification → List NodeId → Engine → Prop
  | nil : Accepts e [] [] e
  | snoc {notes : List Notification} {ids : List NodeId} {e₁ e₂ : Engine} {note : Notification}
      {p : Progress} (h : Accepts e notes ids e₁) (hgo : (handle note).go e₁ = (.ok p, e₂)) :
      Accepts e (notes ++ [note]) (ids ++ p.unlocked) e₂

/-- What notifications to different nodes make of the workflows, when none of them is refused. -/
theorem Accepts.tally {e e' : Engine} {notes : List Notification} {ids : List NodeId}
    (h : Accepts e notes ids e') (hs : e.workflows.Sound) (hf : e.workflows.faults = .none)
    (hd : (notes.map (·.nodeId)).Nodup) (hl : ∀ note ∈ notes, ∃ l, note.Tells l) :
    e.workflows.Tally notes ids e'.workflows ∧ e'.workflows.faults = .none := by
  induction h with
  | nil => exact ⟨.nil hs, hf⟩
  | @snoc notes ids e₁ e₂ note p _ hgo ih =>
      rw [List.map_append, List.nodup_append] at hd
      obtain ⟨hd, -, hnew⟩ := hd
      obtain ⟨hbefore, hlast⟩ := List.forall_mem_append.mp hl
      obtain ⟨l, hl⟩ := hlast note (List.mem_singleton_self note)
      obtain ⟨ht, hf₁⟩ := ih hd hbefore
      have hhandled := handle_handled ht.sound hf₁ note
      rw [hgo] at hhandled
      cases hhandled with
      | carried htakes hx hid =>
          refine ⟨ht.settle htakes.found htakes.taken hl htakes.node (fun k hk => ?_) (hid ▸ hx) hid
            _, hf₁⟩
          exact hnew _ (List.mem_map_of_mem hk) _ (List.mem_singleton_self _)

/-- **Any order.** In an engine that is reached, notifications of lifecycles past the start come to
different nodes, be it those of an instance that was just made or any others.  Two orders in which
all of them are accepted end with the same nodes, unlock the same ones and none of them twice.  If no
two of them write the same key, the contexts of all instances are the same in the end, too. -/
theorem orders_agree {containers notifications : Nat} {admits : Engine → Op → Prop} {e : Engine}
    (h : Reaches admits (ofCapacity containers notifications) e) {notes₁ notes₂ : List Notification}
    (hp : notes₁.Perm notes₂) (hd : (notes₁.map (·.nodeId)).Nodup)
    (hl : ∀ note ∈ notes₁, ∃ l : Lifecycle, note.lifecycle = some l.text ∧ l ≠ .initialized)
    {ids₁ ids₂ : List NodeId} {e₁ e₂ : Engine} (h₁ : Accepts e notes₁ ids₁ e₁)
    (h₂ : Accepts e notes₂ ids₂ e₂) :
    (∀ id, e₁.workflows.nodes.get? id = e₂.workflows.nodes.get? id) ∧
      ids₁.Nodup ∧ ids₂.Nodup ∧ (∀ id, id ∈ ids₁ ↔ id ∈ ids₂) ∧
      (notes₁.Pairwise Notification.Apart → ∀ i,
        (e₁.workflows.instances.get? i).map (·.globalContext) =
          (e₂.workflows.instances.get? i).map (·.globalContext)) := by
  have hsteady := (steady_ofCapacity containers notifications).reaches h
  obtain ⟨ht₁, -⟩ := h₁.tally hsteady.sound hsteady.unfaulted hd hl
  obtain ⟨ht₂, -⟩ := h₂.tally hsteady.sound hsteady.unfaulted ((hp.map _).nodup_iff.mp hd)
    fun note hnote => hl note (hp.mem_iff.mpr hnote)
  obtain ⟨hnodes, hids, hcontexts⟩ := ht₁.perm ht₂ hp
  exact ⟨hnodes, ht₁.distinct, ht₂.distinct, hids, hcontexts⟩

/-- Two forms, and the wait for what comes of both. -/
def joint : WorkflowDefinition where
  name := "joint"
  description := none
  templates := [
    { NodeTemplate.ofKind ⟨"left"⟩ .simpleForm with config := .obj [("formId", .str "L")] },
    { NodeTemplate.ofKind ⟨"right"⟩ .simpleForm with config := .obj [("formId", .str "R")] },
    { ((NodeTemplate.ofKind ⟨"both"⟩ .waitForEvent).after ⟨"left"⟩ none).after ⟨"right"⟩ none with
      config := .obj [("event", .str "E")] }]

/-- An engine in which an instance with two forms was just made. -/
def parted : Engine := after [.create .consignment joint {}] (ofCapacity 1 4)

/-- A form is completed and writes its key. -/
def completing (id key : String) : Notification :=
  ⟨⟨id⟩, some "COMPLETED", none, none, .ofFields [(key, .bool true)]⟩

theorem completing_apart (id id' : String) {key key' : String} (h : key ≠ key') :
    (completing id key).Apart (completing id' key') := by
  intro k
  rw [completing, completing, Context.ofFields, Context.ofFields, List.foldl_cons, List.foldl_nil,
    List.foldl_cons, List.foldl_nil, Context.get?_insert, Context.get?_insert]
  by_cases hk : k = key
  · exact .inr (if_neg fun hk' => h (hk.symm.trans hk'))
  · exact .inl (if_neg hk)

/-- The two forms are completed in either order. -/
theorem orders_agree_parted :
    ∃ e₁ e₂ ids₁ ids₂,
      Accepts parted [completing "$1-left" "l", completing "$1-right" "r"] ids₁ e₁ ∧
      Accepts parted [completing "$1-right" "r", completing "$1-left" "l"] ids₂ e₂ ∧
      (∀ id, e₁.workflows.nodes.get? id = e₂.workflows.nodes.get? id) ∧ ids₁ = ids₂ ∧
      (e₁.workflows.instances.get? (.nth 1)).map (·.globalContext) =
        (e₂.workflows.instances.get? (.nth 1)).map (·.globalContext) := by
  have hleft : ((handle (completing "$1-left" "l")).go parted).1 =
      .ok ⟨⟨"$1-left"⟩, .ready, .completed, [], .active⟩ := by cbv
  have hright : ((handle (completing "$1-right" "r")).go parted).1 =
      .ok ⟨⟨"$1-right"⟩, .ready, .completed, [], .active⟩ := by cbv
  have hleftRight : ((handle (completing "$1-right" "r")).go
      ((handle (completing "$1-left" "l")).go parted).2).1 =
      .ok ⟨⟨"$1-right"⟩, .ready, .completed, [⟨"$1-both"⟩], .active⟩ := by cbv
  have hrightLeft : ((handle (completing "$1-left" "l")).go
      ((handle (completing "$1-right" "r")).go parted).2).1 =
      .ok ⟨⟨"$1-left"⟩, .ready, .completed, [⟨"$1-both"⟩], .active⟩ := by cbv
  have h₁ : Accepts parted [completing "$1-left" "l", completing "$1-right" "r"] _ _ :=
    .snoc (.snoc .nil (Prod.ext hleft rfl)) (Prod.ext hleftRight rfl)
  have h₂ : Accepts parted [completing "$1-right" "r", completing "$1-left" "l"] _ _ :=
    .snoc (.snoc .nil (Prod.ext hright rfl)) (Prod.ext hrightLeft rfl)
  have hreach : Reaches (fun _ _ => True) (ofCapacity 1 4) parted := .step .refl _ trivial
  have hall : ∀ note ∈ [completing "$1-left" "l", completing "$1-right" "r"],
      ∃ l : Lifecycle, note.lifecycle = some l.text ∧ l ≠ .initialized := by
    intro note hnote
    refine ⟨.completed, ?_, by decide⟩
    rcases List.mem_pair.mp hnote with rfl | rfl <;> rfl
  have hboth := orders_agree hreach (.swap _ _ []) (by decide) hall h₁ h₂
  have hapart := completing_apart "$1-left" "$1-right" (show "l" ≠ "r" by decide)
  exact ⟨_, _, _, _, h₁, h₂, hboth.1, rfl, hboth.2.2.2.2 (List.pairwise_pair.mpr hapart) _⟩

end Engine

end Clearance
