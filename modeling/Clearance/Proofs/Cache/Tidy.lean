import Clearance.Proofs.Cache.Lru

/-!
# Clearance — Proofs — Cache — Room in the cache

* `Lru.Tidy`: the order of a cache lists its keys once, and there are no more of them than it holds.
* `Lru.Tidy.get`, `Lru.Tidy.insert_absent`, `Lru.Tidy.set`: what calls do to a tidy cache.  An
  insertion of a key that was absent takes one place, and an eviction gives one back.
* `ContainerCache.find_tidy`, `ContainerCache.insert_tidy`, `ContainerCache.keep_tidy`: the same for
  the containers, when nobody holds an evicted one.
-/

namespace Clearance

namespace Lru

variable {κ α : Type} [DecidableEq κ] {c : Lru κ α} {k : κ} {v : α}

/-- The order of the cache lists its keys, and there is room for them. -/
def Tidy (c : Lru κ α) : Prop := ∃ l, c.Listed l ∧ l.length ≤ c.capacity

theorem tidy_ofCapacity (n : Nat) : (ofCapacity n : Lru κ α).Tidy :=
  ⟨[], listed_ofCapacity n, Nat.zero_le _⟩

theorem Tidy.size_le (h : c.Tidy) : c.size ≤ c.capacity := by
  obtain ⟨l, hl, hroom⟩ := h
  exact hl.size_eq ▸ hroom

theorem capacity_get (c : Lru κ α) (k : κ) : (c.get k).2.capacity = c.capacity := by
  unfold get
  split <;> rfl

theorem capacity_set (c : Lru κ α) (k : κ) (v : α) : (c.set k v).capacity = c.capacity := by
  unfold set
  split <;> rfl

theorem Tidy.get (h : c.Tidy) (k : κ) : (c.get k).2.Tidy := by
  obtain ⟨l, hl, hroom⟩ := h
  cases hv : c.values.get? k with
  | none =>
      rw [Lru.get, hv]
      exact ⟨l, hl, hroom⟩
  | some v =>
      have hk := hl.mem_order.mpr (Table.contains_iff.mpr ⟨v, hv⟩)
      rw [hl.get_of_some hv]
      exact ⟨_, hl.bumped k v, (hl.length_bump_of_mem hk).trans_le hroom⟩

/-- A key that was absent is in the cache once it is inserted, and if another entry had to go for
that, there are as many as before. -/
theorem Tidy.insert_absent (h : c.Tidy) (hk : c.values.get? k = none) (v : α) :
    (c.insert k v).2.Tidy ∧ (c.insert k v).2.capacity = c.capacity ∧
      (c.insert k v).2.values.get? k = some v ∧
      (c.insert k v).2.size + (c.insert k v).1.toList.length = c.size + 1 := by
  obtain ⟨l, hl, hroom⟩ := h
  have hno : k ∉ c.order := fun hmem => by
    obtain ⟨x, hx⟩ := Table.contains_iff.mp (hl.mem_order.mp hmem)
    exact nomatch hk.symm.trans hx
  have hlen : (Recency.bump k v l).length = l.length + 1 := by
    rw [hl.bump_of_not_mem hno, List.length_append, List.length_singleton]
  by_cases hle : (Recency.bump k v l).length ≤ c.capacity
  · rw [hl.insert_of_le hle]
    have hb := hl.bumped k v
    refine ⟨⟨_, hb, hle⟩, rfl, Table.get?_insert_self _ _ _, ?_⟩
    show (c.bumped k v).size + 0 = c.size + 1
    rw [hb.size_eq, hl.size_eq, hlen]
  · obtain ⟨w, x, rest, rfl, hwk, hbump, hins⟩ := hl.insert_of_lt (v := v) hroom (Nat.lt_of_not_le hle)
    rw [hins]
    have hb := hl.bumped k v
    rw [hbump] at hb
    have hd := hb.dropped_head
    refine ⟨⟨_, hd, ?_⟩, rfl, ?_, ?_⟩
    · rw [List.length_append, List.length_singleton]
      exact hroom
    · exact (hd.value k v).mpr (List.mem_append_right _ (List.mem_singleton_self _))
    · show ((c.bumped k v).dropped w).size + 1 = c.size + 1
      rw [hd.size_eq, hl.size_eq, List.length_append, List.length_singleton, List.length_cons]

/-- A replacement leaves the entries where they are. -/
theorem Tidy.set (h : c.Tidy) (k : κ) (v : α) : (c.set k v).Tidy := by
  obtain ⟨l, hl, hroom⟩ := h
  unfold Lru.set
  split
  · refine ⟨l.map fun e => if e.1 = k then (k, v) else e, ⟨?_, hl.distinct, fun j w => ?_⟩, ?_⟩
    · rw [hl.order, List.map_map]
      refine List.map_congr_left fun e _ => ?_
      rw [Function.comp_apply]
      split
      · exact ‹_›
      · rfl
    · rename_i hk
      obtain ⟨x, hx⟩ := Table.contains_iff.mp hk
      rw [Table.get?_insert, List.mem_map]
      by_cases hj : j = k
      · subst hj
        rw [if_pos rfl]
        constructor
        · intro hw
          exact ⟨(j, x), (hl.value j x).mp hx, by rw [if_pos rfl, Option.some.inj hw]⟩
        · rintro ⟨e, -, he⟩
          split at he
          · cases he
            rfl
          · rename_i hne
            cases he
            exact absurd rfl hne
      · rw [if_neg hj, hl.value]
        constructor
        · intro he
          exact ⟨(j, w), he, if_neg hj⟩
        · rintro ⟨e, hmem, he⟩
          split at he
          · cases he
            exact absurd rfl hj
          · exact he ▸ hmem
    · rw [List.length_map]
      exact hroom
  · exact ⟨l, hl, hroom⟩

theorem contains_set (c : Lru κ α) (k j : κ) (v : α) : (c.set k v).contains j = c.contains j := by
  unfold set
  split
  · rename_i hk
    rw [Bool.eq_iff_iff, contains, contains, Table.contains_iff, Table.contains_iff]
    dsimp only
    rw [Table.get?_insert]
    split
    · rename_i hj
      rw [hj]
      exact iff_of_true ⟨v, rfl⟩ (Table.contains_iff.mp hk)
    · rfl
  · rfl

theorem Tidy.size_set (h : c.Tidy) (k : κ) (v : α) : (c.set k v).size = c.size := by
  obtain ⟨l', hl', -⟩ := h.set k v
  obtain ⟨l, hl, -⟩ := h
  have horder : (c.set k v).order = c.order := by
    unfold Lru.set
    split <;> rfl
  rw [hl.size_eq, hl'.size_eq, ← hl.length_order, ← hl'.length_order, horder]

end Lru

namespace ContainerCache

variable {ρ : Type} {c : ContainerCache ρ} {id : NodeId} {r : ρ}

/-- The keys are listed, and there is room for the containers. -/
def Tidy (c : ContainerCache ρ) : Prop := c.entries.Tidy

theorem tidy_ofCapacity (n : Nat) : (ofCapacity n : ContainerCache ρ).Tidy := Lru.tidy_ofCapacity n

/-- A look-up tidies up, and finds what is cached. -/
theorem find_tidy (h : c.Tidy) (id : NodeId) :
    ∃ c' : ContainerCache ρ, c'.Tidy ∧ c'.entries.capacity = c.entries.capacity ∧
      c'.entries.values = c.entries.values ∧
      c.find (fun _ => false) id = (match c.entries.values.get? id with
        | some r => .cached r
        | none => .absent, c') := by
  obtain ⟨c', hv, hf⟩ := c.find_eq id
  have hentries : c'.entries = (c.entries.get id).2 := by
    have hsnd := congrArg (fun p => p.2.entries) hf
    rw [← hsnd]
    unfold find
    rcases c.entries.get id with ⟨_ | _, entries⟩
    · dsimp only
      split <;> rfl
    · rfl
  refine ⟨c', ?_, ?_, hv, hf⟩
  · rw [Tidy, hentries]
    exact Lru.Tidy.get h id
  · rw [hentries, Lru.capacity_get]

/-- A container of a node that had none takes its place, and another one may have to go. -/
theorem insert_tidy (h : c.Tidy) (hid : c.entries.values.get? id = none) (alive : ρ → Bool)
    (r : ρ) :
    (c.insert alive id r).2.Tidy ∧
      (c.insert alive id r).2.entries.capacity = c.entries.capacity ∧
      (c.insert alive id r).2.entries.values.get? id = some r ∧
      (c.insert alive id r).2.size + (if (c.insert alive id r).1 then 1 else 0) = c.size + 1 := by
  have k := Lru.Tidy.insert_absent h hid r
  unfold insert
  revert k
  rcases c.entries.insert id r with ⟨_ | ⟨victim, x⟩, entries⟩
  · exact fun k => k
  · exact fun k => k

theorem keep_tidy (h : c.Tidy) (id : NodeId) (r : ρ) :
    (c.keep id r).Tidy ∧ (c.keep id r).entries.capacity = c.entries.capacity ∧
      (c.keep id r).size = c.size ∧ ∀ k, (c.keep id r).contains k = c.contains k :=
  ⟨Lru.Tidy.set h id r, Lru.capacity_set _ _ _, Lru.Tidy.size_set h id r,
    fun k => Lru.contains_set _ id k r⟩

end ContainerCache

end Clearance
