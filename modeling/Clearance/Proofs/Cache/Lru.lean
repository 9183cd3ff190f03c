import Clearance.Proofs.Tables
import Mathlib.Data.List.Dedup
import Mathlib.Data.List.DropRight

/-!
# Clearance — Proofs — Cache — Least recently used

The cache is compared with an ideal one, which is nothing but the list of its entries, the least
recently used first.

* `Lru.Listed`: the table and the order of a cache show one such list.
* `Lru.Listed.bumped`, `Lru.Listed.dropped`: what the two changes of a cache do to it.
* `Lru.Listed.insert_of_le`, `Lru.Listed.insert_of_lt`: an insertion evicts the first entry if there
  are too many.
* `Lru.Listed.answer`: a call is answered as the ideal cache answers it, and leaves the list that it
  leaves.
* `Lru.dedup_concat`: the distinct keys of a history, by their last touch, when one more is touched.
* `Lru.refines_recency_list`: any calls are answered as by the ideal cache, and what is cached is
  what was touched last.
-/

namespace Clearance

/-! ### Calls -/

/-- What is asked of a cache. -/
inductive CacheCall (κ α : Type) where
  | get (key : κ)
  | insert (key : κ) (value : α)
  | contains (key : κ)
  | remove (key : κ)
  | clear
  | len
  | keysByRecency

/-- What a cache answers. -/
inductive CacheAnswer (κ α : Type) where
  | value (value : Option α)
  /-- The entry that had to go, if one had to. -/
  | evicted (entry : Option (κ × α))
  | found (found : Bool)
  | count (count : Nat)
  | keys (keys : List κ)
  | done

/-- Whether the call may take an entry out without putting one in. -/
def CacheCall.removes {κ α : Type} : CacheCall κ α → Bool
  | .remove _ | .clear => true
  | _ => false

/-- The answers to calls one after the other, and the state after them. -/
def runCalls {σ κ α : Type} (answer : σ → CacheCall κ α → CacheAnswer κ α × σ) (s : σ) :
    List (CacheCall κ α) → List (CacheAnswer κ α) × σ
  | [] => ([], s)
  | call :: rest =>
    let (a, s) := answer s call
    let (as, s) := runCalls answer s rest
    (a :: as, s)

variable {κ α : Type} [DecidableEq κ]

namespace Recency

/-- Takes a key out of a list of entries. -/
def without (key : κ) (l : List (κ × α)) : List (κ × α) := l.filter fun e => e.1 != key

/-- Puts an entry at the most recent end, in place of what its key was bound to. -/
def bump (key : κ) (value : α) (l : List (κ × α)) : List (κ × α) := without key l ++ [(key, value)]

/-- The ideal cache: the list of its entries, the least recently used first. -/
def answer (capacity : Nat) (l : List (κ × α)) :
    CacheCall κ α → CacheAnswer κ α × List (κ × α)
  | .get key =>
    match l.find? fun e => e.1 = key with
    | some e => (.value (some e.2), bump key e.2 l)
    | none => (.value none, l)
  | .insert key value =>
    let l := bump key value l
    if capacity < l.length then (.evicted l.head?, l.tail) else (.evicted none, l)
  | .contains key => (.found (l.any fun e => e.1 = key), l)
  | .remove key => (.value ((l.find? fun e => e.1 = key).map Prod.snd), without key l)
  | .clear => (.done, [])
  | .len => (.count l.length, l)
  | .keysByRecency => (.keys (l.map Prod.fst), l)

theorem mem_without {key : κ} {l : List (κ × α)} {e : κ × α} :
    e ∈ without key l ↔ e ∈ l ∧ e.1 ≠ key := by
  simp [without]

theorem mem_bump {key : κ} {value : α} {l : List (κ × α)} {e : κ × α} :
    e ∈ bump key value l ↔ e ∈ l ∧ e.1 ≠ key ∨ e = (key, value) := by
  simp [bump, mem_without]

theorem map_fst_without {key : κ} {l : List (κ × α)} (h : (l.map Prod.fst).Nodup) :
    (without key l).map Prod.fst = (l.map Prod.fst).erase key := by
  rw [h.erase_eq_filter, List.filter_map]
  rfl

end Recency

namespace Lru

open Recency

variable {c : Lru κ α} {l : List (κ × α)} {k : κ} {v : α}

/-- What the cache answers to a call, and the cache after it. -/
def answer (c : Lru κ α) : CacheCall κ α → CacheAnswer κ α × Lru κ α
  | .get key => ((.value (c.get key).1), (c.get key).2)
  | .insert key value => (.evicted (c.insert key value).1, (c.insert key value).2)
  | .contains key => (.found (c.contains key), c)
  | .remove key => (.value (c.remove key).1, (c.remove key).2)
  | .clear => (.done, c.clear)
  | .len => (.count c.size, c)
  | .keysByRecency => (.keys c.order, c)

/-- The cache with a key bound that becomes the most recent one, however many entries it has then. -/
def bumped (c : Lru κ α) (k : κ) (v : α) : Lru κ α :=
  { c with values := c.values.insert k v, order := c.order.erase k ++ [k] }

/-- The cache without a key. -/
def dropped (c : Lru κ α) (k : κ) : Lru κ α :=
  { c with values := c.values.erase k, order := c.order.erase k }

/-! ### One list of entries -/

/-- The table and the order of the cache show the entries `l`, the least recently used first. -/
structure Listed (c : Lru κ α) (l : List (κ × α)) : Prop where
  order : c.order = l.map Prod.fst
  distinct : c.order.Nodup
  value : ∀ k v, c.values.get? k = some v ↔ (k, v) ∈ l

theorem listed_ofCapacity (n : Nat) : (ofCapacity n : Lru κ α).Listed [] :=
  ⟨rfl, .nil, fun _ _ => iff_of_false nofun List.not_mem_nil⟩

theorem listed_clear (c : Lru κ α) : c.clear.Listed [] :=
  ⟨rfl, .nil, fun _ _ => iff_of_false nofun List.not_mem_nil⟩

namespace Listed

theorem mem_order (h : c.Listed l) : k ∈ c.order ↔ c.values.contains k = true := by
  rw [h.order, List.mem_map, Table.contains_iff]
  constructor
  · rintro ⟨⟨j, v⟩, he, rfl⟩
    exact ⟨v, (h.value j v).mpr he⟩
  · rintro ⟨v, hv⟩
    exact ⟨(k, v), (h.value k v).mp hv, rfl⟩

theorem length_order (h : c.Listed l) : c.order.length = l.length := by
  rw [h.order, List.length_map]

/-- The table has an entry for each key of the order. -/
theorem size_eq (h : c.Listed l) : c.size = l.length := by
  have hp : c.values.keys.Perm c.order :=
    (List.perm_ext_iff_of_nodup c.values.keys_nodup h.distinct).mpr fun k =>
      Table.mem_keys.trans h.mem_order.symm
  have hlen := hp.length_eq
  rw [h.length_order, Table.keys, List.length_map] at hlen
  exact hlen

/-- What the list is asked for is in the table. -/
theorem find?_eq (h : c.Listed l) (k : κ) :
    (l.find? fun e => e.1 = k) = (c.values.get? k).map fun v => (k, v) := by
  cases hv : c.values.get? k with
  | none =>
      refine List.find?_eq_none.mpr fun e he hk => ?_
      have hk : e.1 = k := of_decide_eq_true hk
      rw [(h.value k e.2).mpr (hk ▸ he)] at hv
      cases hv
  | some v =>
      have hfound : (l.find? fun e => e.1 = k).isSome :=
        List.find?_isSome.mpr ⟨(k, v), (h.value k v).mp hv, by simp⟩
      obtain ⟨e, he⟩ := Option.isSome_iff_exists.mp hfound
      have hk : e.1 = k := of_decide_eq_true (List.find?_some he :)
      have hev := (h.value e.1 e.2).mpr (List.mem_of_find?_eq_some he)
      rw [hk, hv] at hev
      rw [he, ← hk, Option.some.inj hev]
      rfl

theorem bumped (h : c.Listed l) (k : κ) (v : α) : (c.bumped k v).Listed (bump k v l) where
  order := by
    rw [bump, List.map_append, map_fst_without (h.order ▸ h.distinct), ← h.order]
    rfl
  distinct := by
    refine List.nodup_append.mpr ⟨h.distinct.erase k, List.nodup_singleton k, ?_⟩
    rintro j hj _ hk rfl
    rw [List.mem_singleton] at hk
    exact (h.distinct.mem_erase_iff.mp hj).1 hk
  value j w := by
    rw [mem_bump, Lru.bumped, Table.get?_insert]
    by_cases hj : j = k
    · simp [hj, eq_comm]
    · simp [hj, h.value j w]

theorem dropped (h : c.Listed l) (k : κ) : (c.dropped k).Listed (without k l) where
  order := by
    rw [map_fst_without (h.order ▸ h.distinct), ← h.order]
    rfl
  distinct := h.distinct.erase k
  value j w := by
    rw [mem_without, Lru.dropped, Table.get?_erase]
    by_cases hj : j = k
    · simp [hj]
    · simp [hj, h.value j w]

/-- With its first key a cache loses its first entry. -/
theorem dropped_head {e : κ × α} (h : c.Listed (e :: l)) : (c.dropped e.1).Listed l := by
  have hd := h.distinct
  rw [h.order, List.map_cons] at hd
  have hno : ∀ x ∈ l, x.1 ≠ e.1 := fun x hx hxe =>
    (List.nodup_cons.mp hd).1 (hxe ▸ List.mem_map_of_mem hx)
  have hl : without e.1 (e :: l) = l := by
    simp only [without, List.filter_cons, bne_self_eq_false, Bool.false_eq_true, if_false]
    exact List.filter_eq_self.mpr fun x hx => by simpa using hno x hx
  exact hl ▸ h.dropped e.1

theorem bump_of_not_mem (h : c.Listed l) (hk : k ∉ c.order) : bump k v l = l ++ [(k, v)] := by
  have hno : ∀ x ∈ l, (x.1 != k) = true := by
    intro x hx
    have hxk : x.1 ≠ k := fun hxk => hk (h.order ▸ hxk ▸ List.mem_map_of_mem hx)
    simpa using hxk
  rw [bump, without, List.filter_eq_self.mpr hno]

/-- A key that is there is bound again in its place in the table. -/
theorem length_bump_of_mem (h : c.Listed l) (hk : k ∈ c.order) : (bump k v l).length = l.length := by
  rw [← (h.bumped k v).length_order, ← h.length_order, Lru.bumped, List.length_append,
    List.length_erase_of_mem hk]
  exact Nat.sub_add_cancel (List.length_pos_of_mem hk)

/-! ### What calls do -/

/-- A look-up that finds its key. -/
theorem get_of_some (h : c.Listed l) (hv : c.values.get? k = some v) :
    c.get k = (some v, c.bumped k v) := by
  have hk := h.mem_order.mpr (Table.contains_iff.mpr ⟨v, hv⟩)
  rw [get, hv, Lru.bumped, Table.insert_of_get? hv]
  simp only [touch, if_pos hk]

/-- An insertion of a key that is there, or into a cache with room for one more. -/
theorem insert_of_le (h : c.Listed l) (hlen : (bump k v l).length ≤ c.capacity) :
    c.insert k v = (none, c.bumped k v) := by
  rw [insert]
  by_cases hk : k ∈ c.order
  · rw [if_pos (h.mem_order.mp hk), touch, if_pos hk, Lru.bumped]
  · rw [if_neg fun hc => hk (h.mem_order.mpr hc), Lru.bumped, List.erase_of_not_mem hk]
    rw [h.bump_of_not_mem hk] at hlen
    refine if_neg (Nat.not_lt.mpr ?_)
    simpa [h.length_order] using hlen

/-- An insertion that overflows the cache evicts its first entry. -/
theorem insert_of_lt (h : c.Listed l) (hb : l.length ≤ c.capacity)
    (hlen : c.capacity < (bump k v l).length) :
    ∃ w x rest, l = (w, x) :: rest ∧ w ≠ k ∧ bump k v l = (w, x) :: (rest ++ [(k, v)]) ∧
      c.insert k v = (some (w, x), (c.bumped k v).dropped w) := by
  have hk : k ∉ c.order := fun hmem => by
    rw [h.length_bump_of_mem hmem] at hlen
    exact Nat.not_lt.mpr hb hlen
  have hbump := h.bump_of_not_mem (v := v) hk
  rw [hbump] at hlen ⊢
  -- a cache of one entry at least is full, so it has a first entry
  rcases l with _ | ⟨⟨w, x⟩, rest⟩
  · exact absurd c.capacity_pos (by simpa using hlen)
  have horder : c.order = w :: rest.map Prod.fst := h.order
  have hwk : w ≠ k := fun hwk => hk (hwk ▸ horder ▸ List.mem_cons_self)
  refine ⟨w, x, rest, rfl, hwk, rfl, ?_⟩
  have hroom : c.capacity < (w :: (rest.map Prod.fst ++ [k])).length := by simpa using hlen
  have hkeep : (c.values.insert k v).get? w = some x := by
    rw [Table.get?_insert_ne _ _ hwk, h.value]
    exact List.mem_cons_self
  have hdropped : (c.bumped k v).dropped w =
      { c with
        values := (c.values.insert k v).erase w
        order := rest.map Prod.fst ++ [k] } := by
    simp only [Lru.bumped, Lru.dropped, List.erase_of_not_mem hk]
    simp only [horder, List.cons_append, List.erase_cons_head]
  rw [hdropped, insert, if_neg fun hc => hk (h.mem_order.mpr hc)]
  simp only [horder, List.cons_append, if_pos hroom, hkeep, Option.map_some]

/-- A removal of a key that is there. -/
theorem remove_of_some (hv : c.values.get? k = some v) : c.remove k = (some v, c.dropped k) := by
  rw [remove, hv]
  rfl

theorem without_of_none (h : c.Listed l) (hv : c.values.get? k = none) : without k l = l := by
  refine List.filter_eq_self.mpr fun e he => bne_iff_ne.mpr fun hk => ?_
  rw [(h.value k e.2).mpr (hk ▸ he)] at hv
  cases hv

/-- **Every call is answered as the ideal cache answers it**, and leaves the list that it leaves. -/
theorem answer (h : c.Listed l) (hb : l.length ≤ c.capacity) (call : CacheCall κ α) :
    (c.answer call).1 = (Recency.answer c.capacity l call).1 ∧
      (c.answer call).2.capacity = c.capacity ∧
      (c.answer call).2.Listed (Recency.answer c.capacity l call).2 ∧
      (Recency.answer c.capacity l call).2.length ≤ c.capacity := by
  cases call with
  | get k =>
      have hfind := h.find?_eq k
      simp only [Lru.answer, Recency.answer, hfind]
      cases hv : c.values.get? k with
      | none =>
          rw [get, hv]
          exact ⟨rfl, rfl, h, hb⟩
      | some v =>
          rw [h.get_of_some hv]
          refine ⟨rfl, rfl, h.bumped k v, ?_⟩
          exact (h.length_bump_of_mem (h.mem_order.mpr (Table.contains_iff.mpr ⟨v, hv⟩))).trans_le hb
  | insert k v =>
      simp only [Lru.answer, Recency.answer]
      split
      · rename_i hlen
        obtain ⟨w, x, rest, rfl, -, hbump, hins⟩ := h.insert_of_lt hb hlen
        have hdropped := h.bumped k v
        rw [hbump] at hdropped
        rw [hins, hbump]
        refine ⟨rfl, rfl, hdropped.dropped_head, ?_⟩
        simpa using hb
      · rename_i hlen
        rw [h.insert_of_le (Nat.not_lt.mp hlen)]
        exact ⟨rfl, rfl, h.bumped k v, Nat.not_lt.mp hlen⟩
  | contains k =>
      refine ⟨congrArg CacheAnswer.found ?_, rfl, h, hb⟩
      rw [Bool.eq_iff_iff, List.any_eq_true, ← List.find?_isSome, h.find?_eq k, Option.isSome_map]
      rfl
  | remove k =>
      simp only [Lru.answer, Recency.answer, h.find?_eq k]
      cases hv : c.values.get? k with
      | none =>
          rw [remove, hv, h.without_of_none hv]
          exact ⟨rfl, rfl, h, hb⟩
      | some v =>
          rw [remove_of_some hv]
          exact ⟨rfl, rfl, h.dropped k, (List.length_filter_le _ _).trans hb⟩
  | clear => exact ⟨rfl, rfl, listed_clear c, Nat.zero_le _⟩
  | len => exact ⟨congrArg CacheAnswer.count h.size_eq, rfl, h, hb⟩
  | keysByRecency => exact ⟨congrArg CacheAnswer.keys h.order, rfl, h, hb⟩

/-- Any calls are answered as the ideal cache answers them. -/
theorem run (h : c.Listed l) (hb : l.length ≤ c.capacity) (calls : List (CacheCall κ α)) :
    (runCalls Lru.answer c calls).1 = (runCalls (Recency.answer c.capacity) l calls).1 ∧
      (runCalls Lru.answer c calls).2.capacity = c.capacity ∧
      (runCalls Lru.answer c calls).2.Listed (runCalls (Recency.answer c.capacity) l calls).2 ∧
      (runCalls (Recency.answer c.capacity) l calls).2.length ≤ c.capacity := by
  induction calls generalizing c l with
  | nil => exact ⟨rfl, rfl, h, hb⟩
  | cons call rest ih =>
      obtain ⟨hanswer, hcap, hlisted, hbound⟩ := h.answer hb call
      obtain ⟨hanswers, hcaps, hlist, hbounds⟩ := ih hlisted (hcap ▸ hbound)
      rw [hcap] at hanswers hcaps hlist hbounds
      exact ⟨congrArg₂ List.cons hanswer hanswers, hcaps, hlist, hbounds⟩

end Listed

/-! ### Histories -/

/-- The distinct keys of a history, by their last touch, when one more is touched. -/
theorem dedup_concat (touched : List κ) (k : κ) :
    (touched ++ [k]).dedup = touched.dedup.erase k ++ [k] := by
  induction touched with
  | nil => simp
  | cons j rest ih =>
      rw [List.cons_append]
      by_cases hj : j ∈ rest
      · rw [List.dedup_cons_of_mem hj, List.dedup_cons_of_mem (List.mem_append_left _ hj), ih]
      · rw [List.dedup_cons_of_notMem hj]
        by_cases hk : j = k
        · subst hk
          rw [List.dedup_cons_of_mem (by simp), ih, List.erase_cons_head,
            List.erase_of_not_mem fun hmem => hj (List.mem_dedup.mp hmem)]
        · rw [List.dedup_cons_of_notMem (by simp [hj, hk]), ih,
            List.erase_cons_tail (by simpa using hk), List.cons_append]

/-- The keys that a call touches: the one that it binds, or finds when it looks it up. -/
def touches (c : Lru κ α) : CacheCall κ α → List κ
  | .get k => if c.contains k then [k] else []
  | .insert k _ => [k]
  | _ => []

/-- The keys that calls touch, the last touch last. -/
def touched (c : Lru κ α) : List (CacheCall κ α) → List κ
  | [] => []
  | call :: rest => c.touches call ++ touched (c.answer call).2 rest

theorem erase_reverse {l : List κ} (h : l.Nodup) (k : κ) :
    l.reverse.erase k = (l.erase k).reverse := by
  rw [h.erase_eq_filter, (List.nodup_reverse.mpr h).erase_eq_filter, List.filter_reverse]

theorem take_erase_take (l : List κ) (k : κ) (n : Nat) :
    ((l.take (n + 1)).erase k).take n = (l.erase k).take n := by
  induction l generalizing n with
  | nil => rfl
  | cons j rest ih =>
      rw [List.take_succ_cons]
      by_cases hj : j = k
      · subst hj
        rw [List.erase_cons_head, List.erase_cons_head, List.take_take, Nat.min_self]
      · rw [List.erase_cons_tail (by simpa using hj), List.erase_cons_tail (by simpa using hj)]
        cases n with
        | zero => rfl
        | succ n => rw [List.take_succ_cons, List.take_succ_cons, ih]

/-- A key that is touched becomes the most recent one; of the others as many stay as there is room
for, whether the ones before them are known or not. -/
theorem rtake_bump {l : List κ} (h : l.Nodup) (k : κ) {n : Nat} (hn : 0 < n) :
    ((l.rtake n).erase k ++ [k]).rtake n = (l.erase k ++ [k]).rtake n := by
  obtain ⟨n, rfl⟩ := Nat.exists_eq_add_of_lt hn
  rw [Nat.zero_add, List.rtake_concat_succ, List.rtake_concat_succ]
  congr 1
  have hr := List.nodup_reverse.mpr h
  rw [List.rtake_eq_reverse_take_reverse l, erase_reverse (hr.sublist (List.take_sublist _ _)),
    List.rtake_eq_reverse_take_reverse, List.reverse_reverse, take_erase_take, erase_reverse h,
    ← List.rtake_eq_reverse_take_reverse]

omit [DecidableEq κ] in
theorem rtake_of_length_le {l : List κ} {n : Nat} (h : l.length ≤ n) : l.rtake n = l := by
  rw [List.rtake, Nat.sub_eq_zero_of_le h, List.drop_zero]

namespace Listed

/-- An insertion keeps of the keys, the new one behind them, as many as the capacity allows. -/
theorem order_insert (h : c.Listed l) (hb : l.length ≤ c.capacity) (k : κ) (v : α) :
    (c.insert k v).2.order = (c.order.erase k ++ [k]).rtake c.capacity := by
  have hlen := (h.bumped k v).length_order
  have horder : (c.bumped k v).order = c.order.erase k ++ [k] := rfl
  rw [horder] at hlen
  by_cases hle : (bump k v l).length ≤ c.capacity
  · rw [h.insert_of_le hle, rtake_of_length_le (hlen.trans_le hle)]
    rfl
  · obtain ⟨w, x, rest, rfl, -, hbump, hins⟩ := h.insert_of_lt hb (Nat.not_le.mp hle)
    have hbumped := h.bumped k v
    rw [hbump] at hbumped hlen
    have hdrop : (c.order.erase k ++ [k]).length - c.capacity = 1 := by
      rw [hbump] at hle
      simp only [List.length_cons, List.length_append, List.length_nil] at hlen hle hb ⊢
      omega
    rw [hins, hbumped.dropped_head.order, List.rtake, hdrop, ← horder, hbumped.order]
    rfl

/-- What a call touches, and what it leaves of the keys. -/
theorem order_answer (h : c.Listed l) (hb : l.length ≤ c.capacity) (call : CacheCall κ α) :
    (∃ k, c.touches call = [k] ∧
        (c.answer call).2.order = (c.order.erase k ++ [k]).rtake c.capacity) ∨
      c.touches call = [] ∧ (c.answer call).2.order.Sublist c.order ∧
        (call.removes = false → (c.answer call).2.order = c.order) := by
  cases call with
  | get k =>
      simp only [Lru.answer, touches]
      cases hv : c.values.get? k with
      | none =>
          rw [get, hv, if_neg (by simp [Lru.contains, Table.contains, hv])]
          exact .inr ⟨rfl, .refl _, fun _ => rfl⟩
      | some v =>
          have hk : c.contains k = true := Table.contains_iff.mpr ⟨v, hv⟩
          have hlen := (h.bumped k v).length_order
          rw [h.length_bump_of_mem (h.mem_order.mpr hk)] at hlen
          rw [h.get_of_some hv, if_pos hk]
          exact .inl ⟨k, rfl, (rtake_of_length_le (hlen.trans_le hb)).symm⟩
  | insert k v => exact .inl ⟨k, rfl, h.order_insert hb k v⟩
  | contains k => exact .inr ⟨rfl, .refl _, fun _ => rfl⟩
  | remove k =>
      refine .inr ⟨rfl, ?_, fun h => Bool.noConfusion h⟩
      cases hv : c.values.get? k with
      | none => rw [Lru.answer, remove, hv]
      | some v =>
          rw [Lru.answer, remove_of_some hv]
          exact List.erase_sublist
  | clear => exact .inr ⟨rfl, List.nil_sublist _, fun h => Bool.noConfusion h⟩
  | len => exact .inr ⟨rfl, .refl _, fun _ => rfl⟩
  | keysByRecency => exact .inr ⟨rfl, .refl _, fun _ => rfl⟩

/-- The order is that of the last touches, whatever was taken out. -/
theorem run_sublist (h : c.Listed l) (hb : l.length ≤ c.capacity) (calls : List (CacheCall κ α))
    {before : List κ} (hold : c.order.Sublist before.dedup) :
    (runCalls Lru.answer c calls).2.order.Sublist (before ++ c.touched calls).dedup := by
  induction calls generalizing c l before with
  | nil => simpa [touched, runCalls] using hold
  | cons call rest ih =>
      obtain ⟨-, hcap, hlisted, hbound⟩ := h.answer hb call
      rw [touched, ← List.append_assoc]
      refine ih hlisted (hcap ▸ hbound) ?_
      rcases h.order_answer hb call with ⟨k, htouch, horder⟩ | ⟨htouch, hsub, -⟩
      · rw [htouch, horder, dedup_concat]
        exact (List.drop_sublist _ _).trans ((hold.erase k).append_right [k])
      · rw [htouch, List.append_nil]
        exact hsub.trans hold

/-- Where nothing is taken out, what is cached is what was touched last. -/
theorem run_rtake (h : c.Listed l) (hb : l.length ≤ c.capacity) (calls : List (CacheCall κ α))
    (hkeep : ∀ call ∈ calls, call.removes = false) {before : List κ}
    (hold : c.order = before.dedup.rtake c.capacity) :
    (runCalls Lru.answer c calls).2.order = (before ++ c.touched calls).dedup.rtake c.capacity := by
  induction calls generalizing c l before with
  | nil => simpa [touched, runCalls] using hold
  | cons call rest ih =>
      obtain ⟨-, hcap, hlisted, hbound⟩ := h.answer hb call
      rw [touched, ← List.append_assoc, ← hcap]
      refine ih hlisted (hcap ▸ hbound) (fun call hcall => hkeep call (.tail _ hcall)) ?_
      rw [hcap]
      rcases h.order_answer hb call with ⟨k, htouch, horder⟩ | ⟨htouch, -, hsame⟩
      · rw [htouch, horder, hold, dedup_concat]
        exact rtake_bump before.nodup_dedup k c.capacity_pos
      · rw [htouch, List.append_nil, hsame (hkeep call List.mem_cons_self), hold]

end Listed

/-! ### The cache as its callers see it -/

/-- What a cache is like and does, after the keys `touched` were touched. -/
structure LeastRecent (c : Lru κ α) (touched : List κ) : Prop where
  distinct : c.order.Nodup
  keys : ∀ k, k ∈ c.order ↔ c.contains k = true
  bounded : c.size ≤ c.capacity
  /-- Of the keys in the cache the one whose last touch was first is the first. -/
  oldest : c.order.Sublist touched.dedup
  hit : ∀ k v, (c.get k).1 = some v → (c.get k).2.order = c.order.erase k ++ [k]
  miss : ∀ k, (c.get k).1 = none → (c.get k).2 = c
  looked : ∀ k, (c.answer (.contains k)).2 = c ∧ (c.answer .len).2 = c ∧
    (c.answer .keysByRecency).2 = c
  inserted : ∀ k v, c.contains k = true ∨ c.size < c.capacity →
    (c.insert k v).1 = none ∧ (c.insert k v).2.order = c.order.erase k ++ [k]
  /-- The entry that has to go is the first one, and not the one that came. -/
  evicted : ∀ k v, c.contains k = false → c.size = c.capacity → ∃ w x rest,
    c.order = w :: rest ∧ c.values.get? w = some x ∧ w ≠ k ∧ (c.insert k v).1 = some (w, x) ∧
      (c.insert k v).2.order = rest ++ [k]

theorem Listed.leastRecent (h : c.Listed l) (hb : l.length ≤ c.capacity) {touched : List κ}
    (ht : c.order.Sublist touched.dedup) : c.LeastRecent touched where
  distinct := h.distinct
  keys _ := h.mem_order
  bounded := h.size_eq ▸ hb
  oldest := ht
  hit k v hv := by
    rw [get_fst] at hv
    rw [h.get_of_some hv]
    rfl
  miss k hv := by
    rw [get_fst] at hv
    rw [get, hv]
  looked _ := ⟨rfl, rfl, rfl⟩
  inserted k v hroom := by
    have hle : (bump k v l).length ≤ c.capacity := by
      by_cases hk : k ∈ c.order
      · exact (h.length_bump_of_mem hk).trans_le hb
      · rw [h.bump_of_not_mem hk, List.length_append, ← h.size_eq]
        exact hroom.resolve_left fun hc => hk (h.mem_order.mpr hc)
    rw [h.insert_of_le hle]
    exact ⟨rfl, rfl⟩
  evicted k v hno hfull := by
    have hk : k ∉ c.order := fun hmem => by simp [Lru.contains, h.mem_order.mp hmem] at hno
    have hlt : c.capacity < (bump k v l).length := by
      rw [h.bump_of_not_mem hk, List.length_append, ← h.size_eq, hfull]
      exact Nat.lt_succ_self _
    obtain ⟨w, x, rest, rfl, hwk, hbump, hins⟩ := h.insert_of_lt hb hlt
    have hbumped := h.bumped k v
    rw [hbump] at hbumped
    refine ⟨w, x, rest.map Prod.fst, h.order, (h.value w x).mpr List.mem_cons_self, hwk, ?_, ?_⟩
    · rw [hins]
    · rw [hins, hbumped.dropped_head.order, List.map_append]
      rfl

/-- **The cache is an ideal one.**  Whatever is asked of it, it answers as the list of its entries
would, the least recently used first, and it shows that list afterwards.  As long as nothing is taken
out, its keys are the distinct ones touched last, as many as the capacity allows. -/
theorem refines_recency_list (n : Nat) (calls : List (CacheCall κ α)) :
    let c := (runCalls answer (ofCapacity n : Lru κ α) calls).2
    let ideal := runCalls (Recency.answer (max 1 n)) ([] : List (κ × α)) calls
    let touched := (ofCapacity n : Lru κ α).touched calls
    (runCalls answer (ofCapacity n : Lru κ α) calls).1 = ideal.1 ∧ c.Listed ideal.2 ∧
      c.capacity = max 1 n ∧ c.LeastRecent touched ∧
      ((∀ call ∈ calls, call.removes = false) → c.order = touched.dedup.rtake (max 1 n)) := by
  have hempty : (ofCapacity n : Lru κ α).Listed [] := listed_ofCapacity n
  obtain ⟨hanswers, hcap, hlisted, hbound⟩ := hempty.run (Nat.zero_le _) calls
  refine ⟨hanswers, hlisted, hcap, hlisted.leastRecent (hcap ▸ hbound) ?_, fun hkeep => ?_⟩
  · exact hempty.run_sublist (Nat.zero_le _) calls (List.nil_sublist (List.dedup []))
  · have hnone : (ofCapacity n : Lru κ α).order = [].dedup.rtake (max 1 n) := by
      rw [List.dedup_nil, List.rtake_nil]
      rfl
    exact hempty.run_rtake (Nat.zero_le _) calls hkeep hnone

end Lru

end Clearance
