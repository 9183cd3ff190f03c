import Clearance.Proofs.Cache.Lru

/-!
# Clearance — Proofs — Cache — Containers

Of the containers of a node at most one is alive, in the cache or in the hands of a caller.  What
carries this is the container of a node that the cache knows: the cached one, or the one remembered
from when it was evicted.  Whoever holds a container holds the one known of its node.

* `ContainerCache.known`, `ContainerCache.Sound`: no node is cached and remembered as evicted.
* `ContainerCache.Adopts`: a container is cached, and of those known of other nodes none that is
  alive is forgotten.
* `ContainerCache.Sound.insert`: putting a container in the cache adopts it.
* `Tenancy.Settled`: whatever is held is known.  Every move of a caller keeps this, `Settled.act`.
* `Tenancy.one_container_per_node`: after any moves of the callers.
-/

namespace Clearance

namespace ContainerCache

variable {ρ : Type} {c c' : ContainerCache ρ} {alive : ρ → Bool} {id : NodeId} {r : ρ}

/-- The container of a node that the cache knows, cached or evicted. -/
def known (c : ContainerCache ρ) (id : NodeId) : Option ρ :=
  (c.entries.values.get? id).or (c.evicted.get? id)

/-- The cached containers are listed, as many as there is room for, and none of their nodes is
remembered as evicted. -/
structure Sound (c : ContainerCache ρ) : Prop where
  listed : ∃ l, c.entries.Listed l ∧ l.length ≤ c.entries.capacity
  apart : ∀ k r, c.entries.values.get? k = some r → c.evicted.get? k = none

theorem sound_ofCapacity (n : Nat) : (ofCapacity n : ContainerCache ρ).Sound :=
  ⟨⟨[], Lru.listed_ofCapacity n, Nat.zero_le _⟩, fun _ _ _ => rfl⟩

theorem known_of_cached (h : c.entries.values.get? id = some r) : c.known id = some r := by
  rw [known, h]
  rfl

theorem known_of_not_cached (h : c.entries.values.get? id = none) :
    c.known id = c.evicted.get? id := by
  rw [known, h]
  rfl

/-- `c'` has the container of a node in the cache.  Of the other nodes it knows no container that `c`
does not know, and every one that is alive. -/
structure Adopts (alive : ρ → Bool) (c c' : ContainerCache ρ) (id : NodeId) (r : ρ) : Prop where
  cached : c'.entries.values.get? id = some r
  only : ∀ k s, k ≠ id → c'.known k = some s → c.known k = some s
  still : ∀ k s, k ≠ id → c.known k = some s → alive s = true → c'.known k = some s

/-! ### A cached container is found -/

/-- The cache with the container of a node as its most recent one. -/
def bumped (c : ContainerCache ρ) (id : NodeId) (r : ρ) : ContainerCache ρ :=
  { c with entries := c.entries.bumped id r }

theorem Sound.get_of_cached (h : c.Sound) (hv : c.entries.values.get? id = some r) :
    c.entries.get id = (some r, (c.bumped id r).entries) := by
  obtain ⟨l, hl, -⟩ := h.listed
  exact hl.get_of_some hv

theorem Sound.find_of_cached (h : c.Sound) (hv : c.entries.values.get? id = some r) :
    c.find alive id = (.cached r, c.bumped id r) := by
  rw [find, h.get_of_cached hv]
  rfl

theorem values_bumped (hv : c.entries.values.get? id = some r) :
    (c.bumped id r).entries.values = c.entries.values :=
  Table.insert_of_get? hv

theorem known_bumped (hv : c.entries.values.get? id = some r) :
    (c.bumped id r).known = c.known := by
  funext k
  rw [known, values_bumped hv]
  rfl

theorem Sound.bumped (h : c.Sound) (hv : c.entries.values.get? id = some r) :
    (c.bumped id r).Sound where
  listed := by
    obtain ⟨l, hl, hb⟩ := h.listed
    have hmem := hl.mem_order.mpr (Table.contains_iff.mpr ⟨r, hv⟩)
    exact ⟨_, hl.bumped id r, (hl.length_bump_of_mem hmem).trans_le hb⟩
  apart k s hk := by
    rw [values_bumped hv] at hk
    exact h.apart k s hk

theorem adopts_bumped (alive : ρ → Bool) (hv : c.entries.values.get? id = some r) :
    Adopts alive c (c.bumped id r) id r where
  cached := by rw [values_bumped hv, hv]
  only k s _ hk := by rwa [known_bumped hv] at hk
  still k s _ hk _ := by rwa [known_bumped hv]

/-! ### A container is put in the cache -/

/-- The cache that remembers no evicted container of a node. -/
def forgot (c : ContainerCache ρ) (id : NodeId) : ContainerCache ρ :=
  { c with evicted := c.evicted.erase id }

theorem find_of_not_cached (hv : c.entries.values.get? id = none) :
    c.find alive id =
      (match (c.evicted.get? id).filter alive with
        | some r => .evicted r
        | none => .absent, c.forgot id) := by
  have hget : c.entries.get id = (none, c.entries) := by rw [Lru.get, hv]
  rw [find, hget]
  cases he : c.evicted.get? id with
  | none => rfl
  | some r => cases ha : alive r <;> simp [Option.filter, ha, forgot]

theorem known_forgot (hv : c.entries.values.get? id = none) (k : NodeId) :
    (c.forgot id).known k = if k = id then none else c.known k := by
  simp only [known, forgot, Table.get?_erase]
  by_cases hk : k = id
  · simp [hk, hv]
  · simp [hk]

theorem Sound.forgot (h : c.Sound) (id : NodeId) : (c.forgot id).Sound where
  listed := h.listed
  apart k s hk := by
    rw [ContainerCache.forgot, Table.get?_erase, h.apart k s hk, ite_self]

/-- What becomes of the cached and of the evicted containers when one comes in: there is room for it,
or another one goes. -/
theorem Sound.insert_cases (h : c.Sound) (alive : ρ → Bool) (id : NodeId) (r : ρ) :
    ∃ c', (c.insert alive id r).2 = c' ∧
      (∃ l, c'.entries.Listed l ∧ l.length ≤ c'.entries.capacity) ∧
      (c'.entries.values = c.entries.values.insert id r ∧ c'.evicted = c.evicted ∨
        ∃ w x, w ≠ id ∧ c.entries.values.get? w = some x ∧
          c'.entries.values = (c.entries.values.insert id r).erase w ∧
          c'.evicted = (c.evicted.filter fun _ s => alive s).insert w x) := by
  obtain ⟨l, hl, hb⟩ := h.listed
  by_cases hle : (Recency.bump id r l).length ≤ c.entries.capacity
  · rw [insert, hl.insert_of_le hle]
    exact ⟨_, rfl, ⟨_, hl.bumped id r, hle⟩, .inl ⟨rfl, rfl⟩⟩
  · obtain ⟨w, x, rest, rfl, hw, hbump, hins⟩ := hl.insert_of_lt hb (Nat.not_le.mp hle)
    have hlisted := hl.bumped id r
    rw [hbump] at hlisted
    rw [insert, hins]
    refine ⟨_, rfl, ⟨_, hlisted.dropped_head, ?_⟩, .inr ⟨w, x, hw, ?_, rfl, rfl⟩⟩
    · rw [List.length_append]
      exact hb
    · exact (hl.value w x).mpr List.mem_cons_self

/-- A container of a node that is not known is adopted. -/
theorem Sound.insert (h : c.Sound) (hno : c.known id = none) (alive : ρ → Bool) (r : ρ) :
    (c.insert alive id r).2.Sound ∧ Adopts alive c (c.insert alive id r).2 id r := by
  obtain ⟨-, he⟩ := Option.or_eq_none_iff.mp hno
  have hnone : ∀ k s, (c.entries.values.insert id r).get? k = some s → c.evicted.get? k = none := by
    intro k s hk
    rcases Table.of_get?_insert hk with ⟨rfl, -⟩ | ⟨-, hk⟩
    · exact he
    · exact h.apart k s hk
  obtain ⟨c', hc, hlisted, ⟨hvalues, hevicted⟩ | ⟨w, x, hw, hx, hvalues, hevicted⟩⟩ :=
    h.insert_cases alive id r
  all_goals rw [hc]
  · have hknown : ∀ k ≠ id, c'.known k = c.known k := fun k hk => by
      rw [known, hvalues, hevicted, Table.get?_insert_ne _ _ hk, known]
    refine ⟨⟨hlisted, fun k s hk => ?_⟩, ⟨?_, fun k s hk hs => ?_, fun k s hk hs _ => ?_⟩⟩
    · rw [hevicted]
      exact hnone k s (hvalues ▸ hk)
    · rw [hvalues, Table.get?_insert_self]
    · rwa [hknown k hk] at hs
    · rwa [hknown k hk]
  · -- the container that went is remembered, with those evicted before that are still alive
    have hknown : ∀ k ≠ id, c'.known k =
        if k = w then c.known w
        else (c.entries.values.get? k).or ((c.evicted.get? k).filter alive) := fun k hk => by
      rw [known, hvalues, hevicted, Table.get?_erase, Table.get?_insert_ne _ _ hk, Table.get?_insert,
        Table.get?_filter, known_of_cached hx]
      split <;> rfl
    refine ⟨⟨hlisted, fun k s hk => ?_⟩, ⟨?_, fun k s hk hs => ?_, fun k s hk hs ha => ?_⟩⟩
    · rw [hvalues, Table.get?_erase] at hk
      rw [hevicted, Table.get?_insert]
      split at hk
      · cases hk
      · rename_i hkw
        rw [if_neg hkw, Table.get?_filter, hnone k s hk]
        rfl
    · rw [hvalues, Table.get?_erase, if_neg (Ne.symm hw), Table.get?_insert_self]
    · rw [hknown k hk] at hs
      split at hs
      · rename_i hkw
        rwa [hkw]
      · rw [known]
        cases hv : c.entries.values.get? k with
        | some _ => rwa [hv] at hs
        | none =>
            rw [hv] at hs
            exact (Option.filter_eq_some_iff.mp hs).1
    · rw [hknown k hk]
      split
      · rename_i hkw
        rwa [← hkw]
      · rw [known] at hs
        cases hv : c.entries.values.get? k with
        | some _ => rwa [hv] at hs
        | none =>
            rw [hv] at hs
            exact Option.filter_eq_some_iff.mpr ⟨hs, ha⟩

/-- A container of a node that is not cached is adopted in place of what was remembered. -/
theorem Sound.insert_forgot (h : c.Sound) (hv : c.entries.values.get? id = none)
    (alive : ρ → Bool) (r : ρ) :
    ((c.forgot id).insert alive id r).2.Sound ∧
      Adopts alive c ((c.forgot id).insert alive id r).2 id r := by
  obtain ⟨hsound, hcached, honly, hstill⟩ :=
    (h.forgot id).insert (by rw [known_forgot hv, if_pos rfl]) alive r
  refine ⟨hsound, hcached, fun k s hk hs => ?_, fun k s hk hs ha => ?_⟩
  · have hs := honly k s hk hs
    rwa [known_forgot hv, if_neg hk] at hs
  · exact hstill k s hk (by rwa [known_forgot hv, if_neg hk]) ha

end ContainerCache

/-! ### Callers -/

namespace Tenancy

variable {t t' : Tenancy} {id : NodeId} {r s : Tenant}

def Cached (t : Tenancy) (r : Tenant) : Prop := ∃ k, t.cache.entries.values.get? k = some r

def Held (t : Tenancy) (r : Tenant) : Prop := ∃ name, t.holds.get? name = some r

/-- A container is alive as long as somebody refers to it. -/
def Live (t : Tenancy) (r : Tenant) : Prop := t.Cached r ∨ t.Held r

theorem alive_iff : t.alive r = true ↔ t.Live r := by
  rw [alive, Bool.or_eq_true, List.contains_iff_mem, List.contains_iff_mem, Table.mem_values,
    Table.mem_values]
  rfl

/-- Asks for the container of a node, where what is built is a container of that node. -/
def request (t : Tenancy) (id : NodeId) (build : Except Failure Unit) :
    Except Failure Acquired × Bool × Tenancy :=
  t.getOrBuild id (build.map fun _ => id)

/-- What callers do. -/
inductive Move where
  /-- Asks for the container of a node and keeps it under a name, or lets it go. -/
  | acquire (id : NodeId) (build : Except Failure Unit) (name : Option String)
  /-- Asks for the container of a node if it is cached. -/
  | look (id : NodeId) (name : Option String)
  | release (name : String)

def act (t : Tenancy) : Move → Tenancy
  | .acquire id build name =>
    match t.request id build with
    | (.ok a, _, t) => t.hold name a.tenant
    | (.error _, _, t) => t
  | .look id name =>
    match t.get id with
    | (some r, t) => t.hold name r
    | (none, t) => t
  | .release name => (t.release name).2

/-- A container that is known is its node's and was built, and one that is held is known. -/
structure Settled (t : Tenancy) : Prop where
  sound : t.cache.Sound
  own : ∀ k r, t.cache.known k = some r → r.node = k ∧ r.serial < t.built
  held : ∀ r, t.Held r → t.cache.known r.node = some r

theorem settled_ofCapacity (n : Nat) : (ofCapacity n).Settled where
  sound := ContainerCache.sound_ofCapacity n
  own _ _ h := nomatch h
  held _ h := nomatch h.choose_spec

namespace Settled

theorem known (h : t.Settled) (hr : t.Live r) : t.cache.known r.node = some r := by
  rcases hr with ⟨k, hk⟩ | hr
  · have hknown := ContainerCache.known_of_cached hk
    rwa [(h.own k r hknown).1]
  · exact h.held r hr

/-- Live containers of one node are one. -/
theorem unique (h : t.Settled) (hr : t.Live r) (hs : t.Live s) (hnode : r.node = s.node) :
    r = s := by
  have hknown := h.known hr
  rw [hnode, h.known hs] at hknown
  exact (Option.some.inj hknown).symm

theorem remembered (h : t.Settled) (hr : t.Held r) (hno : ¬ t.Cached r) :
    t.cache.evicted.get? r.node = some r := by
  have hknown := h.held r hr
  cases hv : t.cache.entries.values.get? r.node with
  | none => rwa [ContainerCache.known_of_not_cached hv] at hknown
  | some x =>
      rw [ContainerCache.known_of_cached hv] at hknown
      exact absurd ⟨_, hv.trans hknown⟩ hno

/-- The container of a node is adopted, and no other one of that node is held. -/
theorem adopts (h : t.Settled) (hsound : t'.cache.Sound)
    (ha : ContainerCache.Adopts t.alive t.cache t'.cache r.node r) (hholds : t'.holds = t.holds)
    (hbuilt : t.built ≤ t'.built) (hr : r.serial < t'.built)
    (hone : ∀ s, t.Live s → s.node = r.node → s = r) : t'.Settled where
  sound := hsound
  own k s hk := by
    by_cases hkr : k = r.node
    · subst hkr
      rw [ContainerCache.known_of_cached ha.cached] at hk
      cases hk
      exact ⟨rfl, hr⟩
    · obtain ⟨hnode, hs⟩ := h.own k s (ha.only k s hkr hk)
      exact ⟨hnode, hs.trans_le hbuilt⟩
  held s hs := by
    rw [Held, hholds] at hs
    have hlive : t.Live s := .inr hs
    by_cases hsr : s.node = r.node
    · rw [hone s hlive hsr]
      exact ContainerCache.known_of_cached ha.cached
    · exact ha.still s.node s hsr (h.held s hs) (alive_iff.mpr hlive)

/-! ### One move -/

/-- The container of a node, once it is put in the cache, or back in it. -/
theorem insert (h : t.Settled) (hv : t.cache.entries.values.get? r.node = none)
    (hcache : t'.cache = t.cache.forgot r.node) (hholds : t'.holds = t.holds)
    (hbuilt : t.built ≤ t'.built) (hr : r.serial < t'.built)
    (hone : ∀ s, t.Live s → s.node = r.node → s = r) :
    (t'.insert r).Settled ∧ (t'.insert r).holds = t.holds ∧
      (t'.insert r).cache.entries.values.get? r.node = some r := by
  have halive : t'.alive = t.alive := by
    funext s
    rw [alive, hcache, hholds]
    rfl
  have heq : (t'.insert r).cache = ((t.cache.forgot r.node).insert t.alive r.node r).2 := by
    rw [← halive, ← hcache]
    rfl
  obtain ⟨hsound, ha⟩ := h.sound.insert_forgot hv t.alive r
  rw [← heq] at hsound ha
  exact ⟨h.adopts hsound ha hholds hbuilt hr hone, hholds, ha.cached⟩

/-- A live container of the node is what a call for it returns.  Nothing is built. -/
theorem request_of_live (h : t.Settled) (hr : t.Live r) (build : Except Failure Unit) :
    ∃ t', t.request r.node build = (.ok ⟨r, false⟩, false, t') ∧ t'.Settled ∧
      t'.holds = t.holds ∧ t'.cache.entries.values.get? r.node = some r := by
  have hknown := h.known hr
  have hserial := (h.own _ r hknown).2
  have hone : ∀ s, t.Live s → s.node = r.node → s = r := fun s hs => h.unique hs hr
  cases hv : t.cache.entries.values.get? r.node with
  | some x =>
      rw [ContainerCache.known_of_cached hv] at hknown
      cases hknown
      rw [request, getOrBuild, h.sound.find_of_cached hv]
      have ha := ContainerCache.adopts_bumped t.alive hv
      exact ⟨_, rfl, h.adopts (h.sound.bumped hv) ha rfl le_rfl hserial hone, rfl, ha.cached⟩
  | none =>
      rw [ContainerCache.known_of_not_cached hv] at hknown
      have ha : t.alive r = true := alive_iff.mpr hr
      rw [request, getOrBuild, ContainerCache.find_of_not_cached hv, hknown, Option.filter_some,
        if_pos ha]
      exact ⟨_, rfl, h.insert hv rfl rfl le_rfl hserial hone⟩

/-- Where no container of the node is alive, a call for it looks one up in vain. -/
theorem find_of_not_live (h : t.Settled) (hno : ∀ r, t.Live r → r.node ≠ id) :
    t.cache.entries.values.get? id = none ∧
      t.cache.find t.alive id = (.absent, t.cache.forgot id) := by
  have hv : t.cache.entries.values.get? id = none :=
    Option.eq_none_iff_forall_ne_some.mpr fun r hr =>
      hno r (.inl ⟨id, hr⟩) (h.own id r (ContainerCache.known_of_cached hr)).1
  refine ⟨hv, ?_⟩
  have hdead : (t.cache.evicted.get? id).filter t.alive = none :=
    Option.filter_eq_none_iff.mpr fun r hr ha =>
      hno r (alive_iff.mp ha)
        (h.own id r ((ContainerCache.known_of_not_cached hv).trans hr)).1
  rw [ContainerCache.find_of_not_cached hv, hdead]

/-- A call for a node of which no container is alive builds one. -/
theorem request_builds (h : t.Settled) (hno : ∀ r, t.Live r → r.node ≠ id) :
    ∃ t', t.request id (.ok ()) = (.ok ⟨⟨t.built, id⟩, true⟩, true, t') ∧ t'.Settled ∧
      t'.holds = t.holds ∧ t'.cache.entries.values.get? id = some ⟨t.built, id⟩ := by
  obtain ⟨hv, hfind⟩ := h.find_of_not_live hno
  rw [request, getOrBuild, hfind]
  refine ⟨_, rfl, h.insert (r := ⟨t.built, id⟩) hv rfl rfl (Nat.le_succ _) (Nat.lt_succ_self _) ?_⟩
  exact fun s hs hnode => absurd hnode (hno s hs)

/-- A build that fails leaves the cached and the held containers as they were. -/
theorem request_fails (h : t.Settled) (hno : ∀ r, t.Live r → r.node ≠ id) (f : Failure) :
    ∃ t', t.request id (.error f) = (.error f, true, t') ∧ t'.Settled ∧
      t'.holds = t.holds ∧ t'.cache.entries = t.cache.entries := by
  obtain ⟨hv, hfind⟩ := h.find_of_not_live hno
  rw [request, getOrBuild, hfind]
  refine ⟨_, rfl, ⟨h.sound.forgot id, fun k r hk => ?_, fun r hr => ?_⟩, rfl, rfl⟩
  · rw [ContainerCache.known_forgot hv] at hk
    split at hk
    · cases hk
    · exact h.own k r hk
  · rw [ContainerCache.known_forgot hv, if_neg (hno r (.inr hr))]
    exact h.held r hr

theorem hold (h : t.Settled) (hr : t.cache.known r.node = some r) (name : Option String) :
    (t.hold name r).Settled := by
  cases name with
  | none => exact h
  | some name =>
      refine ⟨h.sound, h.own, fun s hs => ?_⟩
      obtain ⟨other, hs⟩ := hs
      rcases Table.of_get?_insert hs with ⟨-, rfl⟩ | ⟨-, hs⟩
      · exact hr
      · exact h.held s ⟨other, hs⟩

theorem act (h : t.Settled) (m : Move) : (t.act m).Settled := by
  cases m with
  | acquire id build name =>
      by_cases hlive : ∃ r, t.Live r ∧ r.node = id
      · obtain ⟨r, hr, rfl⟩ := hlive
        obtain ⟨t', ht, hsettled, -, hcached⟩ := h.request_of_live hr build
        rw [Tenancy.act, ht]
        exact hsettled.hold (ContainerCache.known_of_cached hcached) name
      · have hno : ∀ r, t.Live r → r.node ≠ id := fun r hr hnode => hlive ⟨r, hr, hnode⟩
        rcases build with f | _
        · obtain ⟨t', ht, hsettled, -⟩ := h.request_fails hno f
          rw [Tenancy.act, ht]
          exact hsettled
        · obtain ⟨t', ht, hsettled, -, hcached⟩ := h.request_builds hno
          rw [Tenancy.act, ht]
          exact hsettled.hold (ContainerCache.known_of_cached hcached) name
  | look id name =>
      rw [Tenancy.act, get]
      cases hv : t.cache.entries.values.get? id with
      | none =>
          rw [Lru.get, hv]
          exact h
      | some r =>
          rw [h.sound.get_of_cached hv]
          have hnode := (h.own id r (ContainerCache.known_of_cached hv)).1
          have hsettled : ({ t with cache := t.cache.bumped id r } : Tenancy).Settled := by
            refine ⟨h.sound.bumped hv, ?_, ?_⟩ <;> rw [ContainerCache.known_bumped hv]
            · exact h.own
            · exact h.held
          refine hsettled.hold ?_ name
          rw [ContainerCache.known_bumped hv, hnode, ContainerCache.known_of_cached hv]
  | release name =>
      refine ⟨h.sound, h.own, fun r hr => ?_⟩
      obtain ⟨other, hr⟩ := hr
      rw [Tenancy.act, release, Table.get?_erase] at hr
      split at hr
      · cases hr
      · exact h.held r ⟨other, hr⟩

theorem run (h : t.Settled) (moves : List Move) : (moves.foldl Tenancy.act t).Settled := by
  induction moves generalizing t with
  | nil => exact h
  | cons m rest ih => exact ih (h.act m)

end Settled

/-- What a call for the container of a node comes to.  Whether `build` is asked is what the flag
beside the result says. -/
structure Answered (t : Tenancy) (id : NodeId) : Prop where
  existing : ∀ r build, t.Live r → r.node = id → ∃ t',
    t.request id build = (.ok ⟨r, false⟩, false, t') ∧ t'.holds = t.holds ∧ t'.Cached r
  /-- The new container is another one than all that are alive. -/
  built : (∀ r, t.Live r → r.node ≠ id) → ∃ r t',
    t.request id (.ok ()) = (.ok ⟨r, true⟩, true, t') ∧ r.node = id ∧
      (∀ s, t.Live s → s.serial ≠ r.serial) ∧ t'.holds = t.holds ∧ t'.Cached r
  failed : (∀ r, t.Live r → r.node ≠ id) → ∀ f, ∃ t',
    t.request id (.error f) = (.error f, true, t') ∧ t'.holds = t.holds ∧
      t'.cache.entries = t.cache.entries

theorem Settled.answered (h : t.Settled) (id : NodeId) : t.Answered id where
  existing r build hr hnode := by
    subst hnode
    obtain ⟨t', ht, -, hholds, hcached⟩ := h.request_of_live hr build
    exact ⟨t', ht, hholds, _, hcached⟩
  built hno := by
    obtain ⟨t', ht, -, hholds, hcached⟩ := h.request_builds hno
    refine ⟨_, t', ht, rfl, fun s hs => ?_, hholds, _, hcached⟩
    exact Nat.ne_of_lt (h.own _ s (h.known hs)).2
  failed hno f := by
    obtain ⟨t', ht, -, hholds, hentries⟩ := h.request_fails hno f
    exact ⟨t', ht, hholds, hentries⟩

/-- **At most one container of a node is alive.**  Whatever callers have asked for, kept and let go,
the cached and the held containers of a node are the same one, and one that is held and no longer
cached is remembered as evicted.  A call for a node builds a container if none of the node is alive,
and returns the one that is alive otherwise. -/
theorem one_container_per_node (n : Nat) (moves : List Move) :
    let t := moves.foldl act (ofCapacity n)
    (∀ r s, t.Live r → t.Live s → r.node = s.node → r = s) ∧
      (∀ r, t.Held r → ¬ t.Cached r → t.cache.evicted.get? r.node = some r) ∧
      ∀ id, t.Answered id := by
  have h := (settled_ofCapacity n).run moves
  exact ⟨fun r s => h.unique, fun r => h.remembered, h.answered⟩

/-- A container that went while a call held it is the one that the next call gets. -/
example :
    let t := [Move.acquire ⟨"a"⟩ (.ok ()) (some "call"), .acquire ⟨"b"⟩ (.ok ()) none].foldl act
      (ofCapacity 1)
    let (result, asked, t') := t.request ⟨"a"⟩ (.ok ())
    t.cache.contains ⟨"a"⟩ = false ∧ asked = false ∧ t'.cache.contains ⟨"a"⟩ = true ∧
      result.toOption.map Acquired.tenant = some ⟨0, ⟨"a"⟩⟩ := by
  decide

end Tenancy

end Clearance
