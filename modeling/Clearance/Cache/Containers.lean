import Clearance.Cache.Lru
import Clearance.Ids
import Clearance.Failure
import Clearance.Metrics

/-!
# Clearance — Cache — Containers

The cache of live containers, one for a node.  Eviction only drops the cache's own reference: a
container that a caller still holds stays alive, is remembered among the evicted ones, and is adopted
back by the next look-up instead of being built a second time beside itself.

`ContainerCache` is the cache alone, for any type of container and any account of which are alive.
`Tenancy` adds callers who hold containers by name, and is the whole of who keeps what alive.
-/

namespace Clearance

structure ContainerCache (ρ : Type) where
  entries : Lru NodeId ρ
  /-- Evicted containers that were in use when they went. -/
  evicted : Table NodeId ρ

namespace ContainerCache

variable {ρ : Type}

def ofCapacity (capacity : Nat) : ContainerCache ρ := ⟨.ofCapacity capacity, .empty⟩

/-- What a look-up comes to. -/
inductive Lookup (ρ : Type) where
  | cached (container : ρ)
  /-- Evicted, but still held by somebody. -/
  | evicted (container : ρ)
  | absent

/-- Looks a node up among the cached containers, then among the evicted ones still alive. -/
def find (c : ContainerCache ρ) (alive : ρ → Bool) (id : NodeId) : Lookup ρ × ContainerCache ρ :=
  match c.entries.get id with
  | (some r, entries) => (.cached r, { c with entries := entries })
  | (none, entries) =>
    let rest : ContainerCache ρ := ⟨entries, c.evicted.erase id⟩
    match c.evicted.get? id with
    | some r => if alive r then (.evicted r, rest) else (.absent, rest)
    | none => (.absent, rest)

/-- Caches a container and answers whether another one had to go.  Of the evicted containers only
those still alive are remembered. -/
def insert (c : ContainerCache ρ) (alive : ρ → Bool) (id : NodeId) (container : ρ) :
    Bool × ContainerCache ρ :=
  match c.entries.insert id container with
  | (some (victim, r), entries) =>
    (true, ⟨entries, (c.evicted.filter fun _ r => alive r).insert victim r⟩)
  | (none, entries) => (false, { c with entries := entries })

/-- Replaces a cached container by what became of it. -/
def keep (c : ContainerCache ρ) (id : NodeId) (container : ρ) : ContainerCache ρ :=
  { c with entries := c.entries.set id container }

def contains (c : ContainerCache ρ) (id : NodeId) : Bool := c.entries.contains id

def size (c : ContainerCache ρ) : Nat := c.entries.size

end ContainerCache

/-! ### Holders -/

/-- A container as its holders see it: which one it is, and whose. -/
structure Tenant where
  serial : Nat
  node : NodeId
  deriving DecidableEq, Repr

structure Tenancy where
  cache : ContainerCache Tenant
  metrics : Metrics
  /-- The containers callers hold, by the name of the hold. -/
  holds : Table String Tenant
  /-- How many containers were built. -/
  built : Nat

namespace Tenancy

def ofCapacity (capacity : Nat) : Tenancy := ⟨.ofCapacity capacity, {}, .empty, 0⟩

/-- Whether anybody refers to a container: the cache or a holder. -/
def alive (t : Tenancy) (r : Tenant) : Bool :=
  t.cache.entries.values.values.contains r || t.holds.values.contains r

/-- Keeps a reference under a name, in place of what the name held. -/
def hold (t : Tenancy) (name : Option String) (r : Tenant) : Tenancy :=
  match name with
  | some name => { t with holds := t.holds.insert name r }
  | none => t

/-- Drops a reference and answers whether there was one. -/
def release (t : Tenancy) (name : String) : Bool × Tenancy :=
  (t.holds.contains name, { t with holds := t.holds.erase name })

/-- The holds that refer to a container, by name. -/
def holdersOf (t : Tenancy) (r : Tenant) : List String :=
  ((t.holds.entries.filter fun e => e.2 == r).map Prod.fst).mergeSort
    (fun a b => decide (a ≤ b))

def insert (t : Tenancy) (r : Tenant) : Tenancy :=
  let (went, cache) := t.cache.insert t.alive r.node r
  { t with cache := cache, metrics := if went then t.metrics.record .cacheEviction else t.metrics }

/-- How a container came to be returned. -/
structure Acquired where
  tenant : Tenant
  /-- Whether this call built it. -/
  built : Bool

/-- The container of a node: the one alive, or a new one.  `build` answers the node a new container
calls its own, or fails.  The flag says whether `build` was asked. -/
def getOrBuild (t : Tenancy) (id : NodeId) (build : Except Failure NodeId) :
    Except Failure Acquired × Bool × Tenancy :=
  match t.cache.find t.alive id with
  | (.cached r, cache) =>
    (.ok ⟨r, false⟩, false, { t with cache := cache, metrics := t.metrics.recordAccess true })
  | (.evicted r, cache) =>
    (.ok ⟨r, false⟩, false,
      insert { t with cache := cache, metrics := t.metrics.recordAccess true } r)
  | (.absent, cache) =>
    let t := { t with cache := cache, metrics := t.metrics.recordAccess false }
    match build with
    | .error e => (.error e, true, t)
    | .ok own =>
      let r : Tenant := ⟨t.built, own⟩
      (.ok ⟨r, true⟩, true, insert { t with built := t.built + 1 } r)

/-- The cached container of a node, which becomes the most recently used one. -/
def get (t : Tenancy) (id : NodeId) : Option Tenant × Tenancy :=
  let (r, entries) := t.cache.entries.get id
  (r, { t with cache := { t.cache with entries := entries } })

end Tenancy

end Clearance
