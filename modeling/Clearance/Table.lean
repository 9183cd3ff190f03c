/-!
# Clearance — Tables

A `Table` maps keys to values and keeps its entries in the order in which their keys first came.  No
key occurs twice, which the type carries.  `get?` after each operation is given by a lemma.
-/

namespace Clearance

/-- Binds `key` in a list of entries: in its place if it is there, else at the end. -/
def bindKey {κ α : Type} [DecidableEq κ] (key : κ) (value : α) : List (κ × α) → List (κ × α)
  | [] => [(key, value)]
  | (k, v) :: rest => if k = key then (key, value) :: rest else (k, v) :: bindKey key value rest

theorem mem_keys_bindKey {κ α : Type} [DecidableEq κ] {key k : κ} {value : α} {l : List (κ × α)}
    (h : k ∈ (bindKey key value l).map Prod.fst) : k = key ∨ k ∈ l.map Prod.fst := by
  induction l with
  | nil => simp_all [bindKey]
  | cons e rest ih =>
    obtain ⟨k', v⟩ := e
    simp only [bindKey] at h
    split at h
    · simp only [List.map_cons, List.mem_cons] at h ⊢
      rcases h with h | h <;> simp_all
    · simp only [List.map_cons, List.mem_cons] at h ⊢
      rcases h with h | h
      · exact .inr (.inl h)
      · rcases ih h with h | h
        · exact .inl h
        · exact .inr (.inr h)

theorem nodup_keys_bindKey {κ α : Type} [DecidableEq κ] (key : κ) (value : α) {l : List (κ × α)}
    (h : (l.map Prod.fst).Nodup) : ((bindKey key value l).map Prod.fst).Nodup := by
  induction l with
  | nil => simp [bindKey]
  | cons e rest ih =>
    obtain ⟨k, v⟩ := e
    simp only [List.map_cons, List.nodup_cons] at h
    simp only [bindKey]
    split
    · rename_i hk
      simpa [← hk] using h
    · rename_i hk
      simp only [List.map_cons, List.nodup_cons]
      refine ⟨fun hm => ?_, ih h.2⟩
      rcases mem_keys_bindKey hm with hm | hm
      · exact hk hm
      · exact h.1 hm

structure Table (κ α : Type) [DecidableEq κ] where
  entries : List (κ × α)
  keys_nodup : (entries.map Prod.fst).Nodup := by simp

namespace Table

variable {κ α : Type} [DecidableEq κ]

def empty : Table κ α := ⟨[], by simp⟩

instance : Inhabited (Table κ α) := ⟨empty⟩

instance : EmptyCollection (Table κ α) := ⟨empty⟩

def keys (t : Table κ α) : List κ := t.entries.map Prod.fst

def values (t : Table κ α) : List α := t.entries.map Prod.snd

def size (t : Table κ α) : Nat := t.entries.length

def isEmpty (t : Table κ α) : Bool := t.entries.isEmpty

def get? (t : Table κ α) (key : κ) : Option α :=
  (t.entries.find? fun e => e.1 = key).map Prod.snd

def contains (t : Table κ α) (key : κ) : Bool := (t.get? key).isSome

def insert (t : Table κ α) (key : κ) (value : α) : Table κ α :=
  ⟨bindKey key value t.entries, nodup_keys_bindKey key value t.keys_nodup⟩

/-- Keeps the entries that satisfy `p`. -/
def filter (t : Table κ α) (p : κ → α → Bool) : Table κ α :=
  ⟨t.entries.filter fun e => p e.1 e.2,
    t.keys_nodup.sublist ((List.filter_sublist (p := fun e : κ × α => p e.1 e.2)).map Prod.fst)⟩

def erase (t : Table κ α) (key : κ) : Table κ α := t.filter fun k _ => !decide (k = key)

@[simp] theorem get?_empty (key : κ) : (empty : Table κ α).get? key = none := rfl

@[simp] theorem get?_insert_self (t : Table κ α) (key : κ) (value : α) :
    (t.insert key value).get? key = some value := by
  obtain ⟨l, h⟩ := t
  simp only [insert, get?]
  clear h
  induction l with
  | nil => simp [bindKey]
  | cons e rest ih =>
    obtain ⟨k, v⟩ := e
    simp only [bindKey]
    split
    · simp
    · rename_i hk
      simpa [List.find?_cons, hk] using ih

theorem get?_insert_ne (t : Table κ α) {key k : κ} (value : α) (hne : k ≠ key) :
    (t.insert key value).get? k = t.get? k := by
  obtain ⟨l, h⟩ := t
  simp only [insert, get?]
  clear h
  induction l with
  | nil => simp [bindKey, Ne.symm hne]
  | cons e rest ih =>
    obtain ⟨k', v⟩ := e
    simp only [bindKey]
    split
    · rename_i hk
      subst hk
      simp [Ne.symm hne]
    · simp only [List.find?_cons]
      split
      · rfl
      · exact ih

theorem get?_insert (t : Table κ α) (key k : κ) (value : α) :
    (t.insert key value).get? k = if k = key then some value else t.get? k := by
  split
  · rename_i h
    subst h
    exact t.get?_insert_self k value
  · rename_i h
    exact t.get?_insert_ne value h

theorem get?_erase (t : Table κ α) (key k : κ) :
    (t.erase key).get? k = if k = key then none else t.get? k := by
  obtain ⟨l, h⟩ := t
  simp only [erase, filter, get?]
  clear h
  induction l with
  | nil => simp
  | cons e rest ih =>
    obtain ⟨k', v⟩ := e
    by_cases hk : k' = key
    · subst hk
      simp only [decide_true, Bool.not_true, Bool.false_eq_true, not_false_eq_true,
        List.filter_cons_of_neg, ih, List.find?_cons]
      by_cases hkk : k = k'
      · simp [hkk]
      · simp [hkk, Ne.symm hkk]
    · simp only [hk, decide_false, Bool.not_false, List.filter_cons_of_pos, List.find?_cons]
      by_cases hkk : k' = k
      · subst hkk
        simp [hk]
      · simpa [hkk] using ih

end Table

end Clearance
