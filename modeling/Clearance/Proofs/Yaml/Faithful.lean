import Clearance.Proofs.Json.Canonical
import Clearance.Proofs.Wire.Record
import Clearance.Yaml.Writer

/-!
# Clearance — Proofs — Yaml — Trees that say what was written

* `Node.shows`: a node stands for a value.  Texts are typed as the core schema types them, so a node
  that shows a text is one that is not taken for a number, a truth value or nothing.
* `Faithful`: the text written for a value is read as a tree that stands for it.  It is assumed of a
  text, never proved in general; for one given value it is decided by reading the text.
* `Tree.json_of_shows`: a node is loaded as the canonical value it stands for.
* `Tree.exists_fields`: a node that stands for an object has its fields, for a typed value to be
  loaded from.
-/

namespace Clearance

namespace Yaml

/-! ### What a node stands for -/

/-- What a value is as a scalar; a collection is none. -/
def Core.ofJson? : Json → Option Core
  | .null => some .null
  | .bool b => some (.bool b)
  | .int n => some (.int n)
  | .double d => some (.double d)
  | .str s => some (.text s)
  | .arr _ | .obj _ => none

namespace Node

mutual

/-- Whether a node without tags and aliases stands for a value, nested no deeper than `depth`. -/
def shows (depth : Nat) : Json → Node → Bool
  | .arr items, .seq nodes none => depth != 0 && showsItems (depth - 1) items nodes
  | .obj fields, .map entries none => depth != 0 && showsFields (depth - 1) fields entries
  | j, .scalar text style none =>
    -- the second half leaves out numbers that no value holds: too large ones, and infinite ones
    (Core.ofJson? j).any fun c =>
      Core.ofScalar? text style none = some c && Tree.jsonOfCore? c = some j
  | _, _ => false

def showsItems (depth : Nat) : List Json → List Node → Bool
  | [], [] => true
  | x :: items, n :: nodes => shows depth x n && showsItems depth items nodes
  | _, _ => false

def showsFields (depth : Nat) : List (String × Json) → List (Node × Node) → Bool
  | [], [] => true
  | (k, v) :: fields, (kn, vn) :: entries =>
    shows 0 (.str k) kn && shows depth v vn && showsFields depth fields entries
  | _, _ => false

end

end Node

/-- The text written for a value is read as a tree that says the same, and nests no deeper than a
value may. -/
def Faithful (j : Json) : Prop :=
  ∃ t, Tree.ofText? (document j) = some t ∧ t.root.shows maxDepth j

instance (j : Json) : Decidable (Faithful j) :=
  decidable_of_iff ((Tree.ofChars? (documentChars j)).any fun t => t.root.shows maxDepth j) <| by
    rw [Option.any_eq_true, Faithful, Tree.ofText?, document, String.toList_ofList]

/-! ### Scalars -/

namespace Core

theorem ofPlain_eq_text {s s' : String} (h : ofPlain s = .text s') :
    s' = s ∧ ¬(s = "" ∨ isNullWord s) := by
  unfold ofPlain at h
  split at h
  · cases h
  · rename_i hnull
    refine ⟨?_, hnull⟩
    repeat' split at h
    all_goals cases h
    all_goals rfl

theorem ofPlain_eq_null {s : String} (h : ofPlain s = .null) : s = "" ∨ isNullWord s := by
  unfold ofPlain at h
  split at h
  · assumption
  · repeat' split at h
    all_goals cases h

theorem ofPlain_eq_bool {s : String} {b : Bool} (h : ofPlain s = .bool b) :
    boolWord? s = some b := by
  unfold ofPlain at h
  repeat' split at h
  all_goals cases h
  assumption

theorem ofScalar?_eq_text {s s' : String} {style : ScalarStyle}
    (h : ofScalar? s style none = some (.text s')) :
    s' = s ∧ (style = .plain → ¬(s = "" ∨ isNullWord s)) := by
  simp only [ofScalar?] at h
  split at h
  · exact (ofPlain_eq_text (Option.some.inj h)).imp_right fun h _ => h
  · cases h
    exact ⟨rfl, fun hplain => absurd hplain ‹_›⟩

theorem ofScalar?_eq_null {s : String} {style : ScalarStyle}
    (h : ofScalar? s style none = some .null) : style = .plain ∧ (s = "" ∨ isNullWord s) := by
  simp only [ofScalar?] at h
  split at h
  · exact ⟨‹_›, ofPlain_eq_null (Option.some.inj h)⟩
  · cases h

theorem ofScalar?_eq_bool {s : String} {style : ScalarStyle} {b : Bool}
    (h : ofScalar? s style none = some (.bool b)) : style = .plain ∧ boolWord? s = some b := by
  simp only [ofScalar?] at h
  split at h
  · exact ⟨‹_›, ofPlain_eq_bool (Option.some.inj h)⟩
  · cases h

end Core

namespace Node

variable {depth : Nat} {n : Node}

/-- A node that stands for a scalar is one that is loaded as it. -/
theorem of_shows_scalar {j : Json} {c : Core} (h : n.shows depth j) (hc : Core.ofJson? j = some c) :
    ∃ text style, n = .scalar text style none ∧ Core.ofScalar? text style none = some c ∧
      Tree.jsonOfCore? c = some j := by
  unfold shows at h
  split at h
  · cases hc
  · cases hc
  · rw [hc, Option.any_some, Bool.and_eq_true, decide_eq_true_eq, decide_eq_true_eq] at h
    exact ⟨_, _, rfl, h⟩
  · cases h

theorem of_shows_str {s : String} (h : n.shows depth (.str s)) :
    ∃ style, n = .scalar s style none ∧ Core.ofScalar? s style none = some (.text s) := by
  obtain ⟨text, style, rfl, hc, -⟩ := of_shows_scalar h rfl
  obtain ⟨rfl, -⟩ := Core.ofScalar?_eq_text hc
  exact ⟨style, rfl, hc⟩

theorem forall₂_of_showsItems {items : List Json} {nodes : List Node}
    (h : showsItems depth items nodes) :
    List.Forall₂ (fun x m => shows depth x m) items nodes := by
  induction items generalizing nodes with
  | nil =>
      cases nodes with
      | nil => exact .nil
      | cons => cases h
  | cons x items ih =>
      cases nodes with
      | nil => cases h
      | cons n nodes =>
          rw [showsItems, Bool.and_eq_true] at h
          exact .cons h.1 (ih h.2)

theorem forall₂_of_showsFields {fields : List (String × Json)} {entries : List (Node × Node)}
    (h : showsFields depth fields entries) :
    List.Forall₂ (fun f e => shows 0 (.str f.1) e.1 ∧ shows depth f.2 e.2) fields entries := by
  induction fields generalizing entries with
  | nil =>
      cases entries with
      | nil => exact .nil
      | cons => cases h
  | cons f fields ih =>
      cases entries with
      | nil => cases h
      | cons e entries =>
          rw [showsFields, Bool.and_eq_true, Bool.and_eq_true] at h
          exact .cons h.1 (ih h.2)

theorem of_shows_arr {items : List Json} (h : n.shows depth (.arr items)) :
    ∃ d nodes, depth = d + 1 ∧ n = .seq nodes none ∧
      List.Forall₂ (fun x m => shows d x m) items nodes := by
  unfold shows at h
  split at h
  · rename_i hitems
    cases hitems
    rw [Bool.and_eq_true, bne_iff_ne] at h
    obtain ⟨d, rfl⟩ := Nat.exists_eq_succ_of_ne_zero h.1
    exact ⟨d, _, rfl, rfl, forall₂_of_showsItems h.2⟩
  · rename_i hitems
    cases hitems
  · cases h
  · cases h

theorem of_shows_obj {fields : List (String × Json)} (h : n.shows depth (.obj fields)) :
    ∃ d entries, depth = d + 1 ∧ n = .map entries none ∧
      List.Forall₂ (fun f e => shows 0 (.str f.1) e.1 ∧ shows d f.2 e.2) fields entries := by
  unfold shows at h
  split at h
  · rename_i hfields
    cases hfields
  · rename_i hfields
    cases hfields
    rw [Bool.and_eq_true, bne_iff_ne] at h
    obtain ⟨d, rfl⟩ := Nat.exists_eq_succ_of_ne_zero h.1
    exact ⟨d, _, rfl, rfl, forall₂_of_showsFields h.2⟩
  · cases h
  · cases h

end Node

/-! ### Loading -/

theorem mapM_eq_pure {α β : Type} {load : α → Load β} {xs : List α} {ys : List β}
    (h : List.Forall₂ (fun y x => load x = pure y) ys xs) : xs.mapM load = pure ys := by
  induction h with
  | nil => rfl
  | cons hx _ ih => rw [List.mapM_cons, hx, pure_bind, ih, pure_bind]

namespace Tree

variable {t : Tree} {depth : Nat} {n : Node}

theorem string_of_shows {s : String} (h : n.shows depth (.str s)) : t.string n = pure s := by
  obtain ⟨style, rfl, -⟩ := Node.of_shows_str h
  rfl

theorem json_of_shows_scalar {j : Json} {c : Core} (h : n.shows depth j)
    (hc : Core.ofJson? j = some c) : t.json depth n = pure j := by
  obtain ⟨text, style, rfl, hscalar, hj⟩ := Node.of_shows_scalar h hc
  rw [json]
  simp only [resolve, pure_bind, hscalar, Option.bind_some, hj]

mutual

/-- A node is loaded as the value it stands for, if that is canonical; any other value is loaded as
some value at least. -/
theorem json_of_shows : (j : Json) → {depth : Nat} → {n : Node} → n.shows depth j →
    ∃ v, t.json depth n = pure v ∧ (j.Canonical → v = j)
  | .null, _, _, h | .bool _, _, _, h | .int _, _, _, h | .double _, _, _, h | .str _, _, _, h =>
    ⟨_, json_of_shows_scalar h rfl, fun _ => rfl⟩
  | .arr items, _, _, h => by
    obtain ⟨d, nodes, rfl, rfl, hitems⟩ := Node.of_shows_arr h
    obtain ⟨vs, hvs, hcanonical⟩ := items_of_shows items hitems
    refine ⟨.arr vs, ?_, fun h => ?_⟩
    · rw [json]
      simp only [resolve, pure_bind, isLocalTag, Option.any_none, Bool.false_eq_true, if_false, hvs]
    · cases h with
      | arr h => rw [hcanonical h]
  | .obj fields, _, _, h => by
    obtain ⟨d, entries, rfl, rfl, hentries⟩ := Node.of_shows_obj h
    obtain ⟨vs, hvs, hcanonical⟩ := fields_of_shows fields hentries
    refine ⟨.obj (sortFields vs), ?_, fun h => ?_⟩
    · rw [json]
      simp only [resolve, pure_bind, isLocalTag, Option.any_none, Bool.false_eq_true, if_false, hvs]
    · cases h with
      | obj hs h => rw [hcanonical h, sortFields_of_perm hs (.refl _)]

theorem items_of_shows : (items : List Json) → {depth : Nat} → {nodes : List Node} →
    List.Forall₂ (fun x m => Node.shows depth x m) items nodes →
    ∃ vs, nodes.mapM (t.json depth) = pure vs ∧ ((∀ x ∈ items, x.Canonical) → vs = items)
  | [], _, _, .nil => ⟨[], rfl, fun _ => rfl⟩
  | x :: items, _, _, .cons hx hitems => by
    obtain ⟨v, hv, hxv⟩ := json_of_shows x hx
    obtain ⟨vs, hvs, hitemsvs⟩ := items_of_shows items hitems
    refine ⟨v :: vs, ?_, fun h => ?_⟩
    · rw [List.mapM_cons, hv, pure_bind, hvs, pure_bind]
    · rw [List.forall_mem_cons] at h
      rw [hxv h.1, hitemsvs h.2]

theorem fields_of_shows : (fields : List (String × Json)) → {depth : Nat} →
    {entries : List (Node × Node)} →
    List.Forall₂ (fun f e => Node.shows 0 (.str f.1) e.1 ∧ Node.shows depth f.2 e.2)
      fields entries →
    ∃ vs, (entries.mapM fun e => do
        let k ← t.string e.1
        let v ← t.json depth e.2
        pure (k, v)) = pure vs ∧ ((∀ f ∈ fields, f.2.Canonical) → vs = fields)
  | [], _, _, .nil => ⟨[], rfl, fun _ => rfl⟩
  | (k, x) :: fields, _, _, .cons hx hfields => by
    obtain ⟨v, hv, hxv⟩ := json_of_shows x hx.2
    obtain ⟨vs, hvs, hfieldsvs⟩ := fields_of_shows fields hfields
    refine ⟨(k, v) :: vs, ?_, fun h => ?_⟩
    · rw [List.mapM_cons, string_of_shows hx.1, pure_bind, hv, pure_bind, pure_bind, hvs, pure_bind]
    · rw [List.forall_mem_cons] at h
      rw [hxv h.1, hfieldsvs h.2]

end

/-! ### Records -/

/-- Named nodes that stand for fields, one for each and in their order. -/
abbrev ShowFields (depth : Nat) (fields : List (String × Json)) (named : List (String × Node)) :
    Prop :=
  List.Forall₂ (fun f g => g.1 = f.1 ∧ g.2.shows depth f.2) fields named

theorem ShowFields.keys {fields : List (String × Json)} {named : List (String × Node)}
    (h : ShowFields depth fields named) : named.map Prod.fst = fields.map Prod.fst := by
  induction h with
  | nil => rfl
  | cons h _ ih => rw [List.map_cons, List.map_cons, h.1, ih]

/-- A field that is there is loaded from a node that stands for it. -/
theorem ShowFields.lookup {fields : List (String × Json)} {named : List (String × Node)}
    (h : ShowFields depth fields named) {key : String} {j : Json}
    (hj : fields.lookup key = some j) :
    ∃ m, named.lookup key = some m ∧ m.shows depth j := by
  induction h with
  | nil => cases hj
  | @cons f g _ _ h _ ih =>
      obtain ⟨k, m⟩ := g
      obtain ⟨rfl, hm⟩ := h
      rw [lookup_field] at hj ⊢
      split at hj
      · cases hj
        exact ⟨m, if_pos ‹_›, hm⟩
      · rw [if_neg ‹_›]
        exact ih hj

theorem exists_named {fields : List (String × Json)} {entries : List (Node × Node)}
    (h : List.Forall₂ (fun f e => Node.shows 0 (.str f.1) e.1 ∧ Node.shows depth f.2 e.2)
      fields entries) :
    ∃ named, ShowFields depth fields named ∧ (entries.mapM fun e => do
      let k ← t.string e.1
      pure (k, e.2)) = pure named := by
  induction h with
  | nil => exact ⟨[], .nil, rfl⟩
  | @cons f e _ _ h _ ih =>
      obtain ⟨named, hnamed, hload⟩ := ih
      refine ⟨(f.1, e.2) :: named, .cons ⟨rfl, h.2⟩ hnamed, ?_⟩
      rw [List.mapM_cons, string_of_shows h.1, pure_bind, pure_bind, hload, pure_bind]

/-- A node that stands for an object has the fields of the object. -/
theorem exists_fields (names : List String) {fields : List (String × Json)}
    (h : n.shows depth (.obj fields)) (hnames : fields.map Prod.fst = names)
    (hnodup : names.Nodup) :
    ∃ d named, depth = d + 1 ∧ t.fields names n = pure named ∧ ShowFields d fields named := by
  obtain ⟨d, entries, rfl, rfl, hentries⟩ := Node.of_shows_obj h
  obtain ⟨named, hnamed, hload⟩ := exists_named (t := t) hentries
  refine ⟨d, named, rfl, ?_, hnamed⟩
  have hkeys : named.map Prod.fst = names := hnamed.keys.trans hnames
  have hknown : named.filter (fun e => names.contains e.1) = named :=
    List.filter_eq_self.mpr fun g hg => List.contains_iff_mem.mpr (hkeys ▸ List.mem_map_of_mem hg)
  have hdups : names.eraseDups.length = named.length := by
    rw [List.eraseDups, eraseDupsBy_of_pairwise, ← hkeys, List.length_map]
    exact hnodup.imp fun h => beq_eq_false_iff_ne.mpr h.symm
  simp only [Tree.fields, resolve, pure_bind, hload, hknown, hkeys, hdups, if_true]

end Tree

end Yaml

end Clearance
