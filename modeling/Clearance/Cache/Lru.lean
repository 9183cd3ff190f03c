import Clearance.Table

/-!
# Clearance — Cache — Least recently used

A bounded cache.  The values stand in a table, and beside it a list of the keys from the least to the
most recently used.  A look-up that finds its key and an insertion make the key the most recent one;
an insertion that overflows the cache evicts the least recent key.
-/

namespace Clearance

structure Lru (κ α : Type) [DecidableEq κ] where
  capacity : Nat
  values : Table κ α
  /-- The keys from least to most recently used. -/
  order : List κ
  capacity_pos : 0 < capacity

namespace Lru

variable {κ α : Type} [DecidableEq κ]

/-- How many entries a cache holds unless told otherwise. -/
def defaultCapacity : Nat := 100

/-- An empty cache; a capacity of zero counts as one. -/
def ofCapacity (capacity : Nat) : Lru κ α :=
  ⟨max 1 capacity, .empty, [], by omega⟩

def size (c : Lru κ α) : Nat := c.values.size

def isEmpty (c : Lru κ α) : Bool := c.values.isEmpty

def contains (c : Lru κ α) (key : κ) : Bool := c.values.contains key

/-- Moves a key that is in the order to its most recent end. -/
def touch (key : κ) (order : List κ) : List κ :=
  if key ∈ order then order.erase key ++ [key] else order

/-- The value of a key, which becomes the most recently used one. -/
def get (c : Lru κ α) (key : κ) : Option α × Lru κ α :=
  match c.values.get? key with
  | some v => (some v, { c with order := touch key c.order })
  | none => (none, c)

/-- Binds a key and makes it the most recently used one.  Answers the entry that had to go. -/
def insert (c : Lru κ α) (key : κ) (value : α) : Option (κ × α) × Lru κ α :=
  if c.values.contains key then
    (none, { c with values := c.values.insert key value, order := touch key c.order })
  else
    let values := c.values.insert key value
    let order := c.order ++ [key]
    if c.capacity < order.length then
      match order with
      | [] => (none, { c with values := values, order := order })
      | victim :: order =>
        ((values.get? victim).map fun v => (victim, v),
          { c with values := values.erase victim, order := order })
    else (none, { c with values := values, order := order })

/-- Rebinds a key that is there, without touching it. -/
def set (c : Lru κ α) (key : κ) (value : α) : Lru κ α :=
  if c.values.contains key then { c with values := c.values.insert key value } else c

def remove (c : Lru κ α) (key : κ) : Option α × Lru κ α :=
  match c.values.get? key with
  | some v => (some v, { c with values := c.values.erase key, order := c.order.erase key })
  | none => (none, c)

def clear (c : Lru κ α) : Lru κ α := { c with values := .empty, order := [] }

end Lru

end Clearance
