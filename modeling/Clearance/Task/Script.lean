import Clearance.Task.Workshop

/-!
# Clearance — Task — Stand-ins

What takes the place of plugins, and of the way they are built, when the task layer is tried out.  It
stands apart from the program: no other module imports it, and the theory says nothing of it.

* `Script`: a plugin that does what it is told.  It writes the local data of the script, and then
  fails or answers as the script says.
* `Stage`: a container of such plugins.
* `Plugin.buildUnlessRefused`: a way to build plugins that fails where it is asked to.
-/

namespace Clearance

structure Script where
  localData : Context := {}
  /-- The words of the failure it ends with, if any. -/
  failure : Option String := none
  /-- The lifecycle to move to, still to be read. -/
  newState : Option Json := none
  extendedState : Option String := none
  outcome : Option String := none
  contextUpdates : Context := {}
  data : Option Json := none
  deriving DecidableEq, Inhabited

namespace Script

open Bench

def setAll : List (String × Json) → Act Bench Unit
  | [] => pure ()
  | (k, v) :: rest => do
    setLocal k v
    setAll rest

/-- The lifecycle a script asks for. -/
def state? (s : Script) : Except Failure (Option Lifecycle) :=
  match s.newState with
  | none => .ok none
  | some j =>
    match Lifecycle.decode.ofJson j with
    | .ok l => .ok (some l)
    | .error e => .error (.badValue e)

/-- Plays the script. -/
def play (s : Script) : Act Bench Response := do
  setAll s.localData.entries
  match s.failure with
  | some text => throw (.reported .execution text)
  | none =>
    let state ← Act.lift s.state?
    pure {
      newState := state
      extendedState := s.extendedState
      outcome := s.outcome
      contextUpdates := s.contextUpdates
      reply := match s.data with
        | some d => .ok d
        | none => .done }

end Script

/-- A container of a scripted plugin, with the store and the mailbox it works with. -/
structure Stage where
  bench : Bench
  mailbox : Mailbox

namespace Stage

def ofRecord (r : TaskRecord) (store : TaskStore) (notifications : Nat) : Stage :=
  ⟨{ handle := .ofRecord r, store := store }, .ofCapacity notifications⟩

/-- Runs a job at the bench and announces its response. -/
def perform (s : Stage) (job : Act Bench Response) : Except Failure Response × Stage :=
  let (r, bench) := job.go s.bench
  let sent := match r with
    | .ok response => (response.notification? bench.handle.nodeId).map s.mailbox.send
    | .error _ => none
  (r, ⟨bench, (sent.map Prod.snd).getD s.mailbox⟩)

def start (s : Stage) (script : Script) : Except Failure Response × Stage :=
  s.perform (Bench.startBy script.play)

def execute (s : Stage) (script : Script) : Except Failure Response × Stage :=
  s.perform (Bench.executeBy script.play)

def render (s : Stage) (script : Script) : Except Failure Reply × Stage :=
  let (r, bench) := script.play.go s.bench
  (r.map (·.reply), { s with bench := bench })

end Stage

/-- Builds a plugin as `build` does, but refuses a configuration that asks for that. -/
def Plugin.buildUnlessRefused (kind : TaskKind) (config : Json) : Except Failure Plugin :=
  if config.get? "refuse" = some (.bool true) then
    .error (.reported .construction "plugin refused")
  else build kind config

end Clearance
