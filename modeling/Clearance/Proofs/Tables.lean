import Clearance.Cache.Containers
import Clearance.Context
import Mathlib.Data.List.Nodup
import Mathlib.Tactic.Common

/-!
# Clearance — Proofs — Tables and caches

What is found in a context after an insertion or after updates, in a table after several insertions,
and in the container cache after a look-up, an insertion or a replacement: never a container that was
not there before or put there just now.  What is sorted by a text is in the order of the texts, and
a list without duplicates loses none.
-/

namespace Clearance

/-- What is sorted by a text stands in the order of the texts. -/
theorem pairwise_mergeSort_text {α : Type} (text : α → String) (l : List α) :
    (l.mergeSort fun a b => decide (text a ≤ text b)).Pairwise fun a b => text a ≤ text b := by
  refine (List.pairwise_mergeSort (fun a b c hab hbc => ?_) (fun a b => ?_) l).imp
    of_decide_eq_true
  · exact decide_eq_true (String.le_trans (of_decide_eq_true hab) (of_decide_eq_true hbc))
  · simpa using String.le_total (text a) (text b)

/-- Where no two elements are taken for each other, none is erased. -/
theorem eraseDupsBy_of_pairwise {α : Type} {r : α → α → Bool} {l : List α}
    (h : l.Pairwise fun a b => r b a = false) : l.eraseDupsBy r = l := by
  induction h with
  | nil => rfl
  | cons ha _ ih =>
      rw [List.eraseDupsBy_cons, List.filter_eq_self.mpr fun b hb => ?_, ih]
      exact decide_eq_true (ha b hb)

/-! ### Fields -/

section Fields

variable {α : Type}

theorem lookup_field (key key' : String) (value : α) (rest : List (String × α)) :
    ((key, value) :: rest).lookup key' = if key' = key then some value else rest.lookup key' := by
  by_cases h : key' = key
  · simp [h]
  · simp [List.lookup_cons, h, beq_eq_false_iff_ne.mpr h]

/-- What is found under a name once a field is put among sorted ones, or among any. -/
theorem lookup_insertField (key key' : String) (value : α) (fields : List (String × α)) :
    (insertField key value fields).lookup key' =
      if key' = key then some value else fields.lookup key' := by
  induction fields with
  | nil => exact lookup_field key key' value []
  | cons f rest ih =>
      obtain ⟨k, v⟩ := f
      simp only [insertField]
      split
      · exact lookup_field key key' value _
      · split
        · rename_i hk
          subst hk
          simp only [lookup_field]
          split
          · rfl
          · rfl
        · rename_i hk
          simp only [lookup_field, ih]
          by_cases hkey : key' = k
          · simp [hkey, Ne.symm hk]
          · simp [hkey]

/-- Among fields of different names one is found by its name. -/
theorem lookup_eq_some {fields : List (String × α)} (h : (fields.map Prod.fst).Nodup)
    {key : String} {value : α} :
    fields.lookup key = some value ↔ (key, value) ∈ fields := by
  induction fields with
  | nil => simp
  | cons f rest ih =>
      obtain ⟨k, v⟩ := f
      rw [List.map_cons, List.nodup_cons] at h
      rw [lookup_field, List.mem_cons, Prod.mk.injEq]
      by_cases hk : key = k
      · subst hk
        have hno : (key, value) ∉ rest := fun hmem => h.1 (List.mem_map.mpr ⟨_, hmem, rfl⟩)
        simp [hno, eq_comm]
      · simp [hk, ih h.2]

/-- The order of fields of different names does not matter to what is found. -/
theorem lookup_perm {fields gs : List (String × α)} (h : gs.Perm fields)
    (hnodup : (fields.map Prod.fst).Nodup) (key : String) : gs.lookup key = fields.lookup key := by
  refine Option.ext fun v => ?_
  rw [lookup_eq_some ((h.map Prod.fst).nodup_iff.mpr hnodup), lookup_eq_some hnodup, h.mem_iff]

theorem lookup_map_snd {β : Type} (g : α → β) (fields : List (String × α)) (key : String) :
    (fields.map fun f => (f.1, g f.2)).lookup key = (fields.lookup key).map g := by
  induction fields with
  | nil => rfl
  | cons f rest ih =>
      rw [List.map_cons, lookup_field, lookup_field, ih]
      split <;> rfl

end Fields

/-! ### Contexts -/

namespace Context

/-- What a context has under a key once one is bound. -/
theorem get?_insert (c : Context) (key key' : String) (value : Json) :
    (c.insert key value).get? key' = if key' = key then some value else c.get? key' :=
  lookup_insertField key key' value c.entries

theorem nodup_keys (c : Context) : (c.entries.map Prod.fst).Nodup := by
  refine List.pairwise_map.mpr (c.sorted.imp fun {a b} h hab => ?_)
  rw [hab] at h
  exact String.lt_irrefl _ h

/-- What a context has after fields of different names were inserted. -/
theorem get?_foldl_insert {fields : List (String × Json)} (h : (fields.map Prod.fst).Nodup)
    (c : Context) (key : String) :
    (fields.foldl (fun c e => c.insert e.1 e.2) c).get? key =
      (fields.lookup key).or (c.get? key) := by
  induction fields generalizing c with
  | nil => rfl
  | cons f rest ih =>
      obtain ⟨k, v⟩ := f
      rw [List.map_cons, List.nodup_cons] at h
      rw [List.foldl_cons, ih h.2, get?_insert, lookup_field]
      by_cases hk : key = k
      · subst hk
        -- no later field has this key, so the inserted one stays
        have hno : rest.lookup key = none := by
          rw [Option.eq_none_iff_forall_ne_some]
          intro w hw
          exact h.1 (List.mem_map.mpr ⟨_, (lookup_eq_some h.2).mp hw, rfl⟩)
        simp [hno]
      · simp [hk]

/-- What a context has after updates: their value, if they have one. -/
theorem get?_merge (c updates : Context) (key : String) :
    (c.merge updates).get? key = (updates.get? key).or (c.get? key) :=
  get?_foldl_insert updates.nodup_keys c key

/-- Contexts that have the same under every key are equal. -/
theorem ext_get? {c d : Context} (h : ∀ key, c.get? key = d.get? key) : c = d := by
  have hmem : ∀ e, e ∈ c.entries ↔ e ∈ d.entries := by
    rintro ⟨k, v⟩
    rw [← lookup_eq_some c.nodup_keys, ← lookup_eq_some d.nodup_keys]
    exact Eq.congr_left (h k)
  have hperm := (List.perm_ext_iff_of_nodup c.nodup_keys.of_map d.nodup_keys.of_map).mpr hmem
  have heq : c.entries = d.entries :=
    hperm.eq_of_pairwise (fun _ _ _ _ hab hba => absurd hab (String.lt_asymm hba))
      c.sorted d.sorted
  cases c
  cases d
  cases heq
  rfl

/-- Updates that share no key may come in either order. -/
theorem merge_right_comm (c : Context) {u v : Context}
    (h : ∀ key, u.get? key = none ∨ v.get? key = none) :
    (c.merge u).merge v = (c.merge v).merge u := by
  refine ext_get? fun key => ?_
  simp only [get?_merge]
  rcases h key with hu | hv
  · simp [hu]
  · simp [hv]

end Context

/-! ### Tables -/

namespace Table

variable {κ α : Type} [DecidableEq κ]

theorem contains_iff {t : Table κ α} {k : κ} : t.contains k = true ↔ ∃ x, t.get? k = some x := by
  rw [contains, Option.isSome_iff_exists]

theorem contains_eq_false {t : Table κ α} {k : κ} : t.contains k = false ↔ t.get? k = none := by
  rw [contains, Option.isSome_eq_false_iff, Option.isNone_iff_eq_none]

theorem of_get?_insert {t : Table κ α} {k j : κ} {v x : α} (h : (t.insert k v).get? j = some x) :
    j = k ∧ x = v ∨ j ≠ k ∧ t.get? j = some x := by
  rw [get?_insert] at h
  split at h
  · exact .inl ⟨‹j = k›, (Option.some.inj h).symm⟩
  · exact .inr ⟨‹j ≠ k›, h⟩

/-- Of two values bound to one key the later stays. -/
theorem insert_insert (t : Table κ α) (k : κ) (v w : α) :
    (t.insert k v).insert k w = t.insert k w := by
  obtain ⟨l, h⟩ := t
  simp only [insert, mk.injEq]
  clear h
  induction l with
  | nil => simp [bindKey]
  | cons e rest ih =>
      obtain ⟨k', x⟩ := e
      by_cases hk : k' = k
      · simp [bindKey, hk]
      · simp [bindKey, hk, ih]

/-- Binding a key to the value it has changes nothing. -/
theorem insert_of_get? {t : Table κ α} {k : κ} {v : α} (h : t.get? k = some v) :
    t.insert k v = t := by
  obtain ⟨l, hl⟩ := t
  simp only [get?] at h
  simp only [insert, mk.injEq]
  clear hl
  induction l with
  | nil => cases h
  | cons e rest ih =>
      obtain ⟨k', x⟩ := e
      by_cases hk : k' = k
      · simp_all [bindKey]
      · simp only [List.find?_cons, hk, decide_false] at h
        simp [bindKey, hk, ih h]

/-- What is found after values were inserted under keys of their own. -/
theorem get?_foldl_insert (key : α → κ) {l : List α} (h : (l.map key).Nodup) (t : Table κ α)
    (k : κ) :
    (l.foldl (fun t x => t.insert (key x) x) t).get? k =
      (l.find? fun x => key x = k).or (t.get? k) := by
  induction l generalizing t with
  | nil => rfl
  | cons x rest ih =>
      rw [List.map_cons, List.nodup_cons] at h
      rw [List.foldl_cons, ih h.2, get?_insert, List.find?_cons]
      by_cases hk : key x = k
      · -- no later value has this key, so the inserted one stays
        have hno : rest.find? (fun y => key y = k) = none := by
          rw [List.find?_eq_none]
          intro y hy hyk
          exact h.1 (hk ▸ of_decide_eq_true hyk ▸ List.mem_map_of_mem hy)
        simp [hno, hk]
      · simp [hk, Ne.symm hk]

theorem get?_of_mem {t : Table κ α} {e : κ × α} (h : e ∈ t.entries) : t.get? e.1 = some e.2 := by
  cases hf : t.entries.find? fun x => x.1 = e.1 with
  | none => exact absurd (decide_eq_true rfl) (List.find?_eq_none.mp hf e h)
  | some x =>
      have hx : x.1 = e.1 := of_decide_eq_true (List.find?_some hf :)
      rw [get?, hf, List.inj_on_of_nodup_map t.keys_nodup (List.mem_of_find?_eq_some hf) h hx]
      rfl

theorem mem_entries {t : Table κ α} {k : κ} {x : α} : (k, x) ∈ t.entries ↔ t.get? k = some x := by
  refine ⟨get?_of_mem, fun h => ?_⟩
  obtain ⟨e, he, rfl⟩ := Option.map_eq_some_iff.mp h
  have hk : e.1 = k := of_decide_eq_true (List.find?_some he :)
  exact hk ▸ List.mem_of_find?_eq_some he

theorem mem_keys {t : Table κ α} {k : κ} : k ∈ t.keys ↔ t.contains k = true := by
  rw [contains_iff, keys, List.mem_map]
  constructor
  · rintro ⟨e, he, rfl⟩
    exact ⟨e.2, get?_of_mem he⟩
  · rintro ⟨v, hv⟩
    exact ⟨(k, v), mem_entries.mpr hv, rfl⟩

theorem mem_values {t : Table κ α} {x : α} : x ∈ t.values ↔ ∃ k, t.get? k = some x := by
  rw [values, List.mem_map]
  constructor
  · rintro ⟨e, he, rfl⟩
    exact ⟨e.1, get?_of_mem he⟩
  · rintro ⟨k, hk⟩
    exact ⟨(k, x), mem_entries.mpr hk, rfl⟩

theorem get?_filter (t : Table κ α) (p : κ → α → Bool) (k : κ) :
    (t.filter p).get? k = (t.get? k).filter (p k) := by
  refine Option.ext fun x => ?_
  rw [← mem_entries, filter, List.mem_filter, mem_entries, Option.filter_eq_some_iff]

/-- Binding a key that is there leaves the keys as they are, in their order. -/
theorem keys_insert {t : Table κ α} {k : κ} {w : α} (h : t.get? k = some w) (v : α) :
    (t.insert k v).keys = t.keys := by
  obtain ⟨l, hl⟩ := t
  simp only [get?] at h
  simp only [keys, insert]
  clear hl
  induction l with
  | nil => cases h
  | cons e rest ih =>
      obtain ⟨k', x⟩ := e
      by_cases hk : k' = k
      · simp [bindKey, hk]
      · simp only [List.find?_cons, hk, decide_false] at h
        simp [bindKey, hk, ih h]

/-- Tables with the same keys in the same order that find the same are equal. -/
theorem ext_keys {t u : Table κ α} (hk : t.keys = u.keys) (h : ∀ k, t.get? k = u.get? k) :
    t = u := by
  have hlen : t.entries.length = u.entries.length := by
    simpa [keys] using congrArg List.length hk
  have hentries : t.entries = u.entries := by
    refine List.ext_getElem hlen fun i hi hi' => ?_
    have hkey : (t.entries[i]).1 = (u.entries[i]).1 := by
      have := List.getElem_of_eq hk (i := i) (by simpa [keys] using hi)
      simpa [keys] using this
    have hvalue := h (t.entries[i]).1
    rw [get?_of_mem (List.getElem_mem hi), hkey, get?_of_mem (List.getElem_mem hi')] at hvalue
    exact Prod.ext hkey (Option.some.inj hvalue)
  cases t
  cases u
  cases hentries
  rfl

end Table

namespace Lru

variable {κ α : Type} [DecidableEq κ]

theorem get_fst (c : Lru κ α) (k : κ) : (c.get k).1 = c.values.get? k := by
  unfold get
  split <;> simp_all

@[simp] theorem get_values (c : Lru κ α) (k : κ) : (c.get k).2.values = c.values := by
  unfold get
  split <;> rfl

/-- An insertion adds no entry but its own. -/
theorem of_get?_insert {c : Lru κ α} {k j : κ} {v x : α}
    (h : (c.insert k v).2.values.get? j = some x) : j = k ∧ x = v ∨ c.values.get? j = some x := by
  have hins : (c.values.insert k v).get? j = some x → j = k ∧ x = v ∨ c.values.get? j = some x :=
    fun h => (Table.of_get?_insert h).imp_right And.right
  unfold insert at h
  split at h
  · exact hins h
  · dsimp only at h
    split at h
    · split at h
      · exact hins h
      · -- the entry that makes room is erased once the new one is in
        rw [Table.get?_erase] at h
        split at h
        · cases h
        · exact hins h
    · exact hins h

/-- A replacement changes no entry but its own. -/
theorem of_get?_set {c : Lru κ α} {k j : κ} {v x : α} (h : (c.set k v).values.get? j = some x) :
    j = k ∧ x = v ∨ j ≠ k ∧ c.values.get? j = some x := by
  unfold set at h
  split at h
  · exact Table.of_get?_insert h
  · rename_i hk
    refine .inr ⟨?_, h⟩
    rintro rfl
    exact hk (Table.contains_iff.mpr ⟨x, h⟩)

end Lru

namespace ContainerCache

variable {ρ : Type}

/-- A look-up while nobody holds an evicted container finds what is cached. -/
theorem find_eq (c : ContainerCache ρ) (id : NodeId) :
    ∃ c', c'.entries.values = c.entries.values ∧
      c.find (fun _ => false) id = (match c.entries.values.get? id with
        | some r => .cached r
        | none => .absent, c') := by
  have hf := c.entries.get_fst id
  have hv := c.entries.get_values id
  unfold find
  revert hf hv
  rcases c.entries.get id with ⟨_ | r, entries⟩
  · intro hf hv
    rw [← hf]
    -- an evicted container that nobody holds is forgotten
    refine ⟨⟨entries, c.evicted.erase id⟩, hv, ?_⟩
    simp only [Bool.false_eq_true, if_false]
    split <;> rfl
  · intro hf hv
    rw [← hf]
    exact ⟨{ c with entries := entries }, hv, rfl⟩

theorem of_get?_insert {c : ContainerCache ρ} {alive : ρ → Bool} {id k : NodeId} {r x : ρ}
    (h : (c.insert alive id r).2.entries.values.get? k = some x) :
    k = id ∧ x = r ∨ c.entries.values.get? k = some x := by
  refine Lru.of_get?_insert (c := c.entries) ?_
  revert h
  unfold insert
  rcases c.entries.insert id r with ⟨_ | ⟨_, _⟩, _⟩ <;> exact fun h => h

theorem of_get?_keep {c : ContainerCache ρ} {id k : NodeId} {r x : ρ}
    (h : (c.keep id r).entries.values.get? k = some x) :
    k = id ∧ x = r ∨ k ≠ id ∧ c.entries.values.get? k = some x :=
  Lru.of_get?_set h

end ContainerCache

end Clearance
