import Clearance.Json.Document
import Clearance.Proofs.Tables
import Mathlib.Data.List.Perm.Basic

/-!
# Clearance — Proofs — Json — Values as the program holds them

* `Canonical`: every object has its fields sorted by name, one of each; what a reader leaves is
  canonical (`canonical_of_toJson?`).
* `arranged`: a value with the fields of every object in it in another order.
* `Canonical.toJson?_arranged`: a canonical value is read back whatever order its fields are put in.
-/

namespace Clearance

namespace Context

theorem entries_foldl_insert (fields : List (String × Json)) (c : Context) :
    (fields.foldl (fun c e => c.insert e.1 e.2) c).entries =
      fields.foldl (fun sorted f => insertField f.1 f.2 sorted) c.entries := by
  induction fields generalizing c with
  | nil => rfl
  | cons f rest ih => exact ih (c.insert f.1 f.2)

theorem entries_ofFields (fields : List (String × Json)) :
    (ofFields fields).entries = sortFields fields :=
  entries_foldl_insert fields empty

/-- A context is made again from its entries in any order. -/
theorem ofFields_of_perm {c : Context} {fields : List (String × Json)}
    (h : fields.Perm c.entries) : ofFields fields = c := by
  have hnodup : (fields.map Prod.fst).Nodup := (h.map Prod.fst).nodup_iff.mpr c.nodup_keys
  refine ext_get? fun key => ?_
  rw [ofFields, get?_foldl_insert hnodup]
  refine Option.ext fun v => ?_
  rw [show empty.get? key = none from rfl, Option.or_none, lookup_eq_some hnodup, get?,
    lookup_eq_some c.nodup_keys, h.mem_iff]

end Context

/-- Sorting puts fields of different names back in their order. -/
theorem sortFields_of_perm {fields sorted : List (String × Json)} (hs : Sorted sorted)
    (h : fields.Perm sorted) : sortFields fields = sorted := by
  rw [← Context.entries_ofFields, Context.ofFields_of_perm (c := ⟨sorted, hs⟩) h]

theorem mem_of_mem_insertField {key : String} {value : Json} {fields : List (String × Json)}
    {f : String × Json} (h : f ∈ insertField key value fields) :
    f = (key, value) ∨ f ∈ fields := by
  induction fields with
  | nil => exact .inl (List.mem_singleton.mp h)
  | cons g rest ih =>
      rw [insertField] at h
      split at h
      · exact List.mem_cons.mp h
      split at h
      · exact (List.mem_cons.mp h).imp_right fun h => List.mem_cons_of_mem g h
      · rcases List.mem_cons.mp h with rfl | h
        · exact .inr List.mem_cons_self
        · exact (ih h).imp_right fun h => List.mem_cons_of_mem g h

theorem mem_of_mem_sortFields {fields : List (String × Json)} {f : String × Json}
    (h : f ∈ sortFields fields) : f ∈ fields := by
  suffices hgo : ∀ sorted, f ∈ fields.foldl (fun sorted f => insertField f.1 f.2 sorted) sorted →
      f ∈ fields ∨ f ∈ sorted from (hgo [] h).resolve_right List.not_mem_nil
  clear h
  induction fields with
  | nil => exact fun sorted h => .inr h
  | cons g rest ih =>
      intro sorted h
      rcases ih _ h with h | h
      · exact .inl (List.mem_cons_of_mem g h)
      · rcases mem_of_mem_insertField h with rfl | h
        · exact .inl List.mem_cons_self
        · exact .inr h

namespace Json

/-- Objects have their fields sorted by name, one of each name. -/
inductive Canonical : Json → Prop
  | null : Canonical .null
  | bool (b : Bool) : Canonical (.bool b)
  | int (n : Int) : Canonical (.int n)
  | double (d : Double) : Canonical (.double d)
  | str (s : String) : Canonical (.str s)
  | arr {items : List Json} (h : ∀ x ∈ items, Canonical x) : Canonical (.arr items)
  | obj {fields : List (String × Json)} (hs : Sorted fields) (h : ∀ f ∈ fields, Canonical f.2) :
    Canonical (.obj fields)

/-! ### Other orders of fields -/

mutual

/-- The value with the fields of every object in it in the order `arrange` puts them in. -/
def arranged (arrange : List (String × Json) → List (String × Json)) : Json → Json
  | .arr items => .arr (arrangedItems arrange items)
  | .obj fields => .obj (arrange (arrangedFields arrange fields))
  | .null => .null
  | .bool b => .bool b
  | .int n => .int n
  | .double d => .double d
  | .str s => .str s

def arrangedItems (arrange : List (String × Json) → List (String × Json)) : List Json → List Json
  | [] => []
  | x :: rest => arranged arrange x :: arrangedItems arrange rest

def arrangedFields (arrange : List (String × Json) → List (String × Json)) :
    List (String × Json) → List (String × Json)
  | [] => []
  | (k, v) :: rest => (k, arranged arrange v) :: arrangedFields arrange rest

end

variable {arrange : List (String × Json) → List (String × Json)}

theorem arrangedItems_eq (items : List Json) :
    arrangedItems arrange items = items.map (arranged arrange) := by
  induction items with
  | nil => rfl
  | cons x rest ih => rw [arrangedItems, ih, List.map_cons]

theorem arrangedFields_eq (fields : List (String × Json)) :
    arrangedFields arrange fields = fields.map fun f => (f.1, f.2.arranged arrange) := by
  induction fields with
  | nil => rfl
  | cons f rest ih => rw [arrangedFields, ih, List.map_cons]

mutual

theorem arranged_id : (j : Json) → j.arranged id = j
  | .null | .bool _ | .int _ | .double _ | .str _ => rfl
  | .arr items => by rw [arranged, arrangedItems_id]
  | .obj fields => by rw [arranged, arrangedFields_id, id]

theorem arrangedItems_id : (items : List Json) → arrangedItems id items = items
  | [] => rfl
  | x :: rest => by rw [arrangedItems, arranged_id x, arrangedItems_id rest]

theorem arrangedFields_id : (fields : List (String × Json)) → arrangedFields id fields = fields
  | [] => rfl
  | (k, v) :: rest => by rw [arrangedFields, arranged_id v, arrangedFields_id rest]

end

/-- The fields of an arranged object are its fields in some order, each arranged. -/
theorem arranged_obj (harrange : ∀ fs, (arrange fs).Perm fs) (fields : List (String × Json)) :
    ∃ gs : List (String × Json), gs.Perm fields ∧
      (Json.obj fields).arranged arrange = .obj (gs.map fun f => (f.1, f.2.arranged arrange)) := by
  have hperm := harrange (arrangedFields arrange fields)
  rw [arrangedFields_eq] at hperm
  obtain ⟨gs, hgs, hperm⟩ := (congrFun₂ (List.eq_map_comp_perm _) _ _).mpr hperm
  exact ⟨gs, hperm, by rw [arranged, arrangedFields_eq, hgs]⟩

end Json

namespace Document

theorem ofItems_eq (items : List Json) : ofItems items = items.map ofJson := by
  induction items with
  | nil => rfl
  | cons x rest ih => rw [ofItems, ih, List.map_cons]

theorem ofFields_eq (fields : List (String × Json)) :
    ofFields fields = fields.map fun f => (f.1, ofJson f.2) := by
  induction fields with
  | nil => rfl
  | cons f rest ih => rw [ofFields, ih, List.map_cons]

theorem ofFields_arranged (arrange : List (String × Json) → List (String × Json))
    (fields : List (String × Json)) :
    ofFields (fields.map fun f => (f.1, f.2.arranged arrange)) =
      fields.map fun f => (f.1, ofJson (f.2.arranged arrange)) := by
  rw [ofFields_eq, List.map_map]
  rfl

theorem depth_le_depthItems {items : List Document} {d : Document} (h : d ∈ items) :
    d.depth ≤ depthItems items := by
  induction items with
  | nil => cases h
  | cons x rest ih =>
      rw [depthItems]
      rcases List.mem_cons.mp h with rfl | h
      · exact Nat.le_max_left _ _
      · exact Nat.le_trans (ih h) (Nat.le_max_right _ _)

theorem depth_le_depthFields {fields : List (String × Document)} {f : String × Document}
    (h : f ∈ fields) : f.2.depth ≤ depthFields fields := by
  induction fields with
  | nil => cases h
  | cons g rest ih =>
      rw [depthFields]
      rcases List.mem_cons.mp h with rfl | h
      · exact Nat.le_max_left _ _
      · exact Nat.le_trans (ih h) (Nat.le_max_right _ _)

theorem toItems?_map {items : List Json} (doc : Json → Document) {room : Nat}
    (h : ∀ x ∈ items, (doc x).toJson? room = some x) :
    toItems? room (items.map doc) = some items := by
  induction items with
  | nil => rfl
  | cons x rest ih =>
      rw [List.map_cons, toItems?, h x List.mem_cons_self,
        ih fun y hy => h y (List.mem_cons_of_mem x hy)]
      rfl

theorem toFields?_map {fields : List (String × Json)} (doc : Json → Document) {room : Nat}
    (h : ∀ f ∈ fields, (doc f.2).toJson? room = some f.2) :
    toFields? room (fields.map fun f => (f.1, doc f.2)) = some fields := by
  induction fields with
  | nil => rfl
  | cons f rest ih =>
      rw [List.map_cons, toFields?, h f List.mem_cons_self,
        ih fun g hg => h g (List.mem_cons_of_mem f hg)]
      rfl

end Document

namespace Json

variable {arrange : List (String × Json) → List (String × Json)}

/-- A canonical value is read back, whatever order its fields were put in. -/
theorem Canonical.toJson?_arranged (harrange : ∀ fs, (arrange fs).Perm fs) {j : Json}
    (h : j.Canonical) {room : Nat} (hroom : (Document.ofJson (j.arranged arrange)).depth ≤ room) :
    (Document.ofJson (j.arranged arrange)).toJson? room = some j := by
  induction h generalizing room with
  | null | bool | int | double | str => rfl
  | @arr items _ ih =>
      rw [arranged, arrangedItems_eq, Document.ofJson, Document.ofItems_eq, List.map_map] at hroom ⊢
      rw [Document.depth] at hroom
      obtain ⟨room, rfl⟩ := Nat.exists_eq_add_of_le' (Nat.le_of_add_left_le hroom)
      have hitems : Document.toItems? room (items.map (Document.ofJson ∘ arranged arrange)) =
          some items := by
        refine Document.toItems?_map (Document.ofJson ∘ arranged arrange) fun x hx => ih x hx ?_
        have hmem := List.mem_map_of_mem (f := Document.ofJson ∘ arranged arrange) hx
        exact Nat.le_trans (Document.depth_le_depthItems hmem) (Nat.le_of_succ_le_succ hroom)
      rw [Document.toJson?, if_neg (Nat.succ_ne_zero room), Nat.add_sub_cancel, hitems]
      rfl
  | @obj fields hs _ ih =>
      obtain ⟨gs, hgs, hobj⟩ := arranged_obj harrange fields
      rw [hobj, Document.ofJson, Document.ofFields_arranged] at hroom ⊢
      rw [Document.depth] at hroom
      obtain ⟨room, rfl⟩ := Nat.exists_eq_add_of_le' (Nat.le_of_add_left_le hroom)
      have hfields : Document.toFields? room
          (gs.map fun f => (f.1, Document.ofJson (f.2.arranged arrange))) = some gs := by
        refine Document.toFields?_map (fun v => Document.ofJson (v.arranged arrange))
          fun f hf => ih f (hgs.mem_iff.mp hf) ?_
        have hmem := List.mem_map_of_mem
          (f := fun f : String × Json => (f.1, Document.ofJson (f.2.arranged arrange))) hf
        exact Nat.le_trans (Document.depth_le_depthFields hmem) (Nat.le_of_succ_le_succ hroom)
      rw [Document.toJson?, if_neg (Nat.succ_ne_zero room), Nat.add_sub_cancel, hfields,
        Option.map_some, sortFields_of_perm hs hgs]

end Json

/-- An object whose fields are sorted when they are all there. -/
theorem Json.Canonical.of_sortFields {fields : List (String × Json)}
    (h : ∀ f ∈ fields, f.2.Canonical) : (Json.obj (sortFields fields)).Canonical := by
  refine .obj ?_ fun f hf => h f (mem_of_mem_sortFields hf)
  rw [← Context.entries_ofFields]
  exact Context.sorted _

namespace Document

mutual

/-- **What is read is canonical**, whatever the text it was read from. -/
theorem canonical_of_toJson? : {room : Nat} → (d : Document) → {j : Json} →
    d.toJson? room = some j → j.Canonical
  | room, .null, _, h => by cases h; exact .null
  | room, .bool b, _, h => by cases h; exact .bool b
  | room, .int n, _, h => by cases h; exact .int n
  | room, .double x, _, h => by cases h; exact .double x
  | room, .str s, _, h => by cases h; exact .str s
  | room, .seq items .closed, _, h => by
    rw [toJson?] at h
    split at h
    · cases h
    · obtain ⟨values, hvalues, rfl⟩ := Option.map_eq_some_iff.mp h
      exact .arr (canonical_of_toItems? items hvalues)
  | room, .map fields .closed, _, h => by
    rw [toJson?] at h
    split at h
    · cases h
    · obtain ⟨values, hvalues, rfl⟩ := Option.map_eq_some_iff.mp h
      exact .of_sortFields (canonical_of_toFields? fields hvalues)
  | room, .seq _ .cut, _, h => nomatch h
  | room, .map _ .cut, _, h => nomatch h
  | room, .valueless, _, h => nomatch h
  | room, .broken, _, h => nomatch h

theorem canonical_of_toItems? : {room : Nat} → (items : List Document) → {values : List Json} →
    toItems? room items = some values → ∀ v ∈ values, v.Canonical
  | room, [], _, h => by cases h; exact fun _ hv => nomatch hv
  | room, x :: rest, _, h => by
    obtain ⟨v, hv, h⟩ := Option.bind_eq_some_iff.mp h
    obtain ⟨vs, hvs, h⟩ := Option.bind_eq_some_iff.mp h
    cases h
    exact List.forall_mem_cons.mpr ⟨canonical_of_toJson? x hv, canonical_of_toItems? rest hvs⟩

theorem canonical_of_toFields? : {room : Nat} → (fields : List (String × Document)) →
    {values : List (String × Json)} → toFields? room fields = some values →
    ∀ f ∈ values, f.2.Canonical
  | room, [], _, h => by cases h; exact fun _ hv => nomatch hv
  | room, (k, x) :: rest, _, h => by
    obtain ⟨v, hv, h⟩ := Option.bind_eq_some_iff.mp h
    obtain ⟨vs, hvs, h⟩ := Option.bind_eq_some_iff.mp h
    cases h
    exact List.forall_mem_cons.mpr ⟨canonical_of_toJson? x hv, canonical_of_toFields? rest hvs⟩

end

end Document

end Clearance
