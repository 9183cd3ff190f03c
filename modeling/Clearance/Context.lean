import Clearance.Json.Value

/-!
# Clearance — Contexts

A `Context` is the key/value data of a workflow or of a task.  Its entries are kept sorted by key
with one entry per key, so two contexts with the same values are equal.
-/

namespace Clearance

/-- Sorted by key, strictly: no key occurs twice. -/
def Sorted {α : Type} (fields : List (String × α)) : Prop := fields.Pairwise fun a b => a.1 < b.1

theorem key_of_mem_insertField {α : Type} {key : String} {value : α} {fields : List (String × α)}
    {f : String × α} (h : f ∈ insertField key value fields) : f.1 = key ∨ f ∈ fields := by
  induction fields with
  | nil => simp_all [insertField]
  | cons g rest ih =>
    obtain ⟨k, v⟩ := g
    simp only [insertField] at h
    split at h
    · simp only [List.mem_cons] at h ⊢
      rcases h with rfl | h | h <;> simp_all
    · split at h
      · simp only [List.mem_cons] at h ⊢
        rcases h with rfl | h <;> simp_all
      · simp only [List.mem_cons] at h ⊢
        rcases h with rfl | h
        · simp
        · rcases ih h with h | h <;> simp_all

theorem sorted_insertField {α : Type} (key : String) (value : α) {fields : List (String × α)}
    (h : Sorted fields) : Sorted (insertField key value fields) := by
  induction fields with
  | nil => simp [insertField, Sorted]
  | cons g rest ih =>
    obtain ⟨k, v⟩ := g
    simp only [Sorted, List.pairwise_cons] at h
    obtain ⟨hk, hrest⟩ := h
    simp only [insertField]
    split
    · rename_i hlt
      simp only [Sorted, List.pairwise_cons, List.mem_cons]
      refine ⟨?_, hk, hrest⟩
      rintro f (rfl | hf)
      · exact hlt
      · exact String.lt_trans hlt (hk f hf)
    · split
      · rename_i heq
        simp only [Sorted, List.pairwise_cons]
        exact ⟨fun f hf => heq ▸ hk f hf, hrest⟩
      · rename_i hlt hne
        simp only [Sorted, List.pairwise_cons]
        refine ⟨fun f hf => ?_, ih hrest⟩
        rcases key_of_mem_insertField hf with h | h
        · show k < f.1
          rw [h]
          by_cases hkk : k < key
          · exact hkk
          · exact absurd (String.le_antisymm (String.not_lt.1 hkk) (String.not_lt.1 hlt)) hne
        · exact hk f h

structure Context where
  entries : List (String × Json)
  sorted : Sorted entries := by simp [Sorted]
  deriving DecidableEq

namespace Context

def empty : Context := ⟨[], by simp [Sorted]⟩

instance : Inhabited Context := ⟨empty⟩

instance : EmptyCollection Context := ⟨empty⟩

def isEmpty (c : Context) : Bool := c.entries.isEmpty

/-- The value of a key. -/
def get? (c : Context) (key : String) : Option Json := c.entries.lookup key

/-- The context with `key` bound to `value`. -/
def insert (c : Context) (key : String) (value : Json) : Context :=
  ⟨insertField key value c.entries, sorted_insertField key value c.sorted⟩

/-- `c` overlaid by `updates`, whose values win. -/
def merge (c updates : Context) : Context :=
  updates.entries.foldl (fun c e => c.insert e.1 e.2) c

/-- The context of a list of fields; of two of the same key the later stays. -/
def ofFields (fields : List (String × Json)) : Context :=
  fields.foldl (fun c e => c.insert e.1 e.2) empty

def toJson (c : Context) : Json := .obj c.entries

end Context

end Clearance
