import Clearance.Json.Value

/-!
# Clearance — Metrics

Counters of what the engine did, and the share of container look-ups that found one.  A counter is a
natural number; the wrap-around of a counter of 64 bits after `2^64` counts is left out.
-/

namespace Clearance

inductive MetricKind where
  | cacheHit
  | cacheMiss
  | cacheEviction
  | pluginBuild
  | notificationSent
  | notificationDropped
  | notificationProcessed
  | notificationFailed
  | nodeUnlocked
  | unlockRegistrationFailed
  deriving DecidableEq, Repr, Inhabited

namespace MetricKind

def all : List MetricKind := [
  .cacheHit, .cacheMiss, .cacheEviction, .pluginBuild, .notificationSent, .notificationDropped,
  .notificationProcessed, .notificationFailed, .nodeUnlocked, .unlockRegistrationFailed]

def text : MetricKind → String
  | .cacheHit => "CacheHit"
  | .cacheMiss => "CacheMiss"
  | .cacheEviction => "CacheEviction"
  | .pluginBuild => "PluginBuild"
  | .notificationSent => "NotificationSent"
  | .notificationDropped => "NotificationDropped"
  | .notificationProcessed => "NotificationProcessed"
  | .notificationFailed => "NotificationFailed"
  | .nodeUnlocked => "NodeUnlocked"
  | .unlockRegistrationFailed => "UnlockRegistrationFailed"

def ofText? (s : String) : Option MetricKind := all.find? (·.text == s)

/-- The field of a snapshot that shows the counter. -/
def fieldName : MetricKind → String
  | .cacheHit => "cacheHits"
  | .cacheMiss => "cacheMisses"
  | .cacheEviction => "cacheEvictions"
  | .pluginBuild => "pluginBuilds"
  | .notificationSent => "notificationsSent"
  | .notificationDropped => "notificationsDropped"
  | .notificationProcessed => "notificationsProcessed"
  | .notificationFailed => "notificationsFailed"
  | .nodeUnlocked => "nodesUnlocked"
  | .unlockRegistrationFailed => "unlockRegistrationFailures"

end MetricKind

structure Metrics where
  cacheHits : Nat := 0
  cacheMisses : Nat := 0
  cacheEvictions : Nat := 0
  pluginBuilds : Nat := 0
  notificationsSent : Nat := 0
  notificationsDropped : Nat := 0
  notificationsProcessed : Nat := 0
  notificationsFailed : Nat := 0
  nodesUnlocked : Nat := 0
  unlockRegistrationFailures : Nat := 0
  deriving DecidableEq, Repr, Inhabited

namespace Metrics

def count (m : Metrics) : MetricKind → Nat
  | .cacheHit => m.cacheHits
  | .cacheMiss => m.cacheMisses
  | .cacheEviction => m.cacheEvictions
  | .pluginBuild => m.pluginBuilds
  | .notificationSent => m.notificationsSent
  | .notificationDropped => m.notificationsDropped
  | .notificationProcessed => m.notificationsProcessed
  | .notificationFailed => m.notificationsFailed
  | .nodeUnlocked => m.nodesUnlocked
  | .unlockRegistrationFailed => m.unlockRegistrationFailures

/-- Counts `n` occurrences. -/
def add (m : Metrics) (n : Nat) : MetricKind → Metrics
  | .cacheHit => { m with cacheHits := m.cacheHits + n }
  | .cacheMiss => { m with cacheMisses := m.cacheMisses + n }
  | .cacheEviction => { m with cacheEvictions := m.cacheEvictions + n }
  | .pluginBuild => { m with pluginBuilds := m.pluginBuilds + n }
  | .notificationSent => { m with notificationsSent := m.notificationsSent + n }
  | .notificationDropped => { m with notificationsDropped := m.notificationsDropped + n }
  | .notificationProcessed => { m with notificationsProcessed := m.notificationsProcessed + n }
  | .notificationFailed => { m with notificationsFailed := m.notificationsFailed + n }
  | .nodeUnlocked => { m with nodesUnlocked := m.nodesUnlocked + n }
  | .unlockRegistrationFailed =>
    { m with unlockRegistrationFailures := m.unlockRegistrationFailures + n }

def record (m : Metrics) (k : MetricKind) : Metrics := m.add 1 k

/-- Counts a look-up in the container cache. -/
def recordAccess (m : Metrics) (hit : Bool) : Metrics :=
  m.record (if hit then .cacheHit else .cacheMiss)

/-- The share of look-ups that found a container, zero before the first. -/
def hitRate (m : Metrics) : Double :=
  let total := m.cacheHits + m.cacheMisses
  if total = 0 then .ofFloat 0 else .ofFloat (Float.ofNat m.cacheHits / Float.ofNat total)

/-- The share with six decimals. -/
def hitRateText (m : Metrics) : String := m.hitRate.writeFixed 6

/-- All counters and the share of hits. -/
def toJson (m : Metrics) : Json :=
  .obj (MetricKind.all.map (fun k => (k.fieldName, Json.int (m.count k))) ++
    [("cacheHitRate", .str m.hitRateText)])

theorem count_record (m : Metrics) (k j : MetricKind) :
    (m.record k).count j = m.count j + if j = k then 1 else 0 := by
  cases k <;> cases j <;> rfl

end Metrics

end Clearance
