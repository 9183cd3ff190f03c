import Clearance.Engine.Progress

/-!
# Clearance — Engine — The consumer

Takes the notifications out of the mailbox, oldest first, until none is left.  A notification may
unlock nodes, whose starts send notifications in turn; but each node is unlocked once, so as many
rounds as there are queued notifications and locked nodes are always enough.

`Consumer.processed` is a natural number, as the counters of `Metrics` are; its wrap-around after
`2^64` notifications is left out.
-/

namespace Clearance

namespace Engine

/-- Takes the oldest notification out of the mailbox. -/
def receive (e : Engine) : Option Notification × Engine :=
  let (n, mailbox) := e.workshop.mailbox.take?
  (n, { e with workshop := { e.workshop with mailbox := mailbox } })

/-- How many nodes are locked. -/
def lockedCount (e : Engine) : Nat := (e.workflows.nodes.values.filter (·.state == .locked)).length

/-- How many notifications there can be to handle before the mailbox is empty. -/
def backlog (e : Engine) : Nat := e.workshop.mailbox.queue.length + e.lockedCount

/-- Handles notifications until none is left, or `limit` of them.  Answers each with its result. -/
def drain {α : Type} (act : Notification → Act Engine α) (limit : Nat) (e : Engine) :
    List (Notification × Except Failure α) × Engine :=
  match limit with
  | 0 => ([], e)
  | limit + 1 =>
    match e.receive with
    | (none, e) => ([], e)
    | (some n, e) =>
      let (r, e) := (act n).go e
      let (rest, e) := drain act limit e
      ((n, r) :: rest, e)

/-- Processes everything queued and answers how much that was. -/
def consume (e : Engine) : Nat × Engine :=
  let (done, e) := drain process e.backlog e
  (done.length, e)

/-- The mailbox accepts no more notifications; what is queued stays. -/
def closed (e : Engine) : Engine :=
  { e with workshop := { e.workshop with mailbox := e.workshop.mailbox.close } }

/-- The reader of the mailbox goes away. -/
def deserted (e : Engine) : Engine :=
  { e with workshop := { e.workshop with mailbox := e.workshop.mailbox.abandon } }

end Engine

/-- The one that takes the notifications of an engine, with how many it has processed since it
started. -/
structure Consumer where
  engine : Engine
  processed : Nat := 0

namespace Consumer

open Engine

/-- Takes the oldest notification, if there is one, and processes it. -/
def turn (c : Consumer) : Consumer :=
  match c.engine.receive with
  | (none, e) => { c with engine := e }
  | (some n, e) => ⟨((process n).go e).2, c.processed + 1⟩

/-- Processes what is queued, while the mailbox stays open for the starts of the nodes that are
unlocked.  Then closes it, processes what is still there, and goes away.  Answers how many
notifications were processed in all. -/
def stop (c : Consumer) : Nat × Engine :=
  let (drained, e) := c.engine.consume
  let (rest, e) := e.closed.consume
  (c.processed + drained + rest, e.deserted)

end Consumer

namespace Engine

/-- A consumer is started and stopped at once. -/
def shutdown (e : Engine) : Nat × Engine := Consumer.stop { engine := e }

end Engine

end Clearance
