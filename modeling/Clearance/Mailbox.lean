import Clearance.Ids
import Clearance.Metrics
import Clearance.Wire.Names

/-!
# Clearance — Mailbox

The bounded queue between the task layer and the workflow layer.  Sending never waits: a notification
that finds the mailbox full or closed is dropped.  What was queued before the mailbox closed stays
there to be taken.
-/

namespace Clearance

/-- A change of a node, as its plugin reports it. -/
structure Notification where
  nodeId : NodeId
  /-- The text of a lifecycle. -/
  lifecycle : Option String
  extendedState : Option String
  outcome : Option String
  contextUpdates : Context
  deriving DecidableEq, Inhabited

open Decoder

namespace Notification

def toJson (n : Notification) : Json :=
  .obj [
    ("nodeId", .str n.nodeId.text),
    ("lifecycle", .ofText? n.lifecycle),
    ("extendedState", .ofText? n.extendedState),
    ("outcome", .ofText? n.outcome),
    ("contextUpdates", n.contextUpdates.toJson)]

def slots : List Slot := [
  slot "nodeId" .required NodeId.decode,
  slot "lifecycle" .nullable (optional string),
  slot "extendedState" .nullable (optional string),
  slot "outcome" .nullable (optional string),
  slot "contextUpdates" .defaulted context]

def decode : Decoder Notification := fun src d => do
  let f ← record "Notification" slots src d
  return {
    nodeId := ← f.get "nodeId" NodeId.decode
    lifecycle := ← f.getD "lifecycle" (optional string) none
    extendedState := ← f.getD "extendedState" (optional string) none
    outcome := ← f.getD "outcome" (optional string) none
    contextUpdates := ← f.getD "contextUpdates" context {} }

end Notification

structure Mailbox where
  capacity : Nat
  queue : List Notification
  /-- Whether it still accepts notifications. -/
  isOpen : Bool
  capacity_pos : 0 < capacity

namespace Mailbox

theorem max_one_pos (capacity : Nat) : 0 < max 1 capacity := by omega

/-- An open, empty mailbox; a capacity of zero counts as one. -/
def ofCapacity (capacity : Nat) : Mailbox := ⟨max 1 capacity, [], true, max_one_pos capacity⟩

def accepts (m : Mailbox) : Bool := m.isOpen && decide (m.queue.length < m.capacity)

/-- Queues a notification, or drops it. -/
def send (m : Mailbox) (n : Notification) : Bool × Mailbox :=
  if m.accepts then (true, { m with queue := m.queue ++ [n] }) else (false, m)

/-- Takes the oldest notification. -/
def take? (m : Mailbox) : Option Notification × Mailbox :=
  match m.queue with
  | [] => (none, m)
  | n :: rest => (some n, { m with queue := rest })

/-- Accepts no more notifications. -/
def close (m : Mailbox) : Mailbox := { m with isOpen := false }

/-- Closes the mailbox and discards what is queued, as when its reader goes away. -/
def abandon (m : Mailbox) : Mailbox := { m with isOpen := false, queue := [] }

end Mailbox

end Clearance
