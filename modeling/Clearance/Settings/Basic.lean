import Clearance.Wire.Decoder

/-!
# Clearance — Settings

What an engine is told when it starts.
-/

namespace Clearance

structure Settings where
  /-- How many live containers are cached. -/
  cacheCapacity : Nat := 100
  /-- How many notifications the mailbox holds. -/
  mailboxCapacity : Nat := 100
  /-- How long a call to an agency may take, in seconds. -/
  outboundTimeoutSecs : Nat := 30
  bindAddress : String := "127.0.0.1:8080"
  /-- The directory of workflow definitions, if any. -/
  definitionsDir : Option String := none
  logFilter : String := "info"
  jsonLogs : Bool := false
  deriving DecidableEq, Repr, Inhabited

namespace Settings

/-- The settings with a timeout given in milliseconds, of which whole seconds are kept. -/
def withOutboundTimeoutMs (s : Settings) (ms : Nat) : Settings :=
  { s with outboundTimeoutSecs := ms / 1000 }

def outboundTimeoutMs (s : Settings) : Nat := s.outboundTimeoutSecs * 1000

open Decoder

def toJson (s : Settings) : Json :=
  .obj [
    ("cache_capacity", .int s.cacheCapacity),
    ("mailbox_capacity", .int s.mailboxCapacity),
    ("outbound_timeout_secs", .int s.outboundTimeoutSecs),
    ("bind_address", .str s.bindAddress),
    ("definitions_dir", .ofText? s.definitionsDir),
    ("log_filter", .str s.logFilter),
    ("json_logs", .bool s.jsonLogs)]

def slots : List Slot := [
  slot "cache_capacity" .defaulted (natural "usize"),
  slot "mailbox_capacity" .defaulted (natural "usize"),
  slot "outbound_timeout_secs" .defaulted (natural "u64"),
  slot "bind_address" .defaulted string,
  slot "definitions_dir" .defaulted (optional string),
  slot "log_filter" .defaulted string,
  slot "json_logs" .defaulted boolean]

/-- The name of every setting. -/
def names : List String := slots.map (·.name)

def decode : Decoder Settings := fun src d => do
  let f ← record "EngineConfig" slots src d
  let usual : Settings := {}
  return {
    cacheCapacity := ← f.getD "cache_capacity" (natural "usize") usual.cacheCapacity
    mailboxCapacity := ← f.getD "mailbox_capacity" (natural "usize") usual.mailboxCapacity
    outboundTimeoutSecs := ← f.getD "outbound_timeout_secs" (natural "u64") usual.outboundTimeoutSecs
    bindAddress := ← f.getD "bind_address" string usual.bindAddress
    definitionsDir := ← f.getD "definitions_dir" (optional string) none
    logFilter := ← f.getD "log_filter" string usual.logFilter
    jsonLogs := ← f.getD "json_logs" boolean usual.jsonLogs }

end Settings

end Clearance
