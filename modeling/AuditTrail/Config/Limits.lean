import AuditTrail.Config.Sections
import AuditTrail.Error

/-!
# Limits of a configuration

Every section has limits on its own values; all that are broken are reported at once, in the order of their paths. Rules that join
several values are looked at only when no limit is broken, and the first broken one is reported.
-/

namespace AuditTrail.Config

/-- A limit on one value, and whether the value keeps it. -/
structure Bound where
  path : String
  limit : Limit
  holds : Bool
  deriving DecidableEq, Repr

namespace Bound

/-- A number no less than a least one. -/
def atLeast (path : String) (least n : Int) : Bound := ⟨path, .range, least ≤ n⟩

/-- A number between a least and a greatest one. -/
def between (path : String) (least greatest n : Int) : Bound := ⟨path, .range, least ≤ n && n ≤ greatest⟩

/-- Something of some length. -/
def nonempty (path : String) (length : Nat) : Bound := ⟨path, .length, 1 ≤ length⟩

end Bound

/-- The limits of a configuration in the order of their paths. -/
def bounds (c : Config) : List Bound := [
  .atLeast "batch.channel_capacity" 1 c.batch.channelCapacity.toNat,
  .atLeast "batch.interval_ms" 1 c.batch.intervalMs.toNat,
  .between "batch.size" 1 1000000 c.batch.size.toNat,
  .atLeast "correlator.channel_capacity" 1 c.correlator.channelCapacity.toNat,
  .between "correlator.max_attempts" 1 100 c.correlator.maxAttempts.toNat,
  .atLeast "delivery.channel_capacity" 1 c.delivery.channelCapacity.toNat,
  .nonempty "queue.brokers" c.queue.brokers.length,
  .atLeast "queue.connect_timeout_secs" 1 c.queue.connectTimeoutSecs.toNat,
  .atLeast "queue.fetch_max_bytes" 1024 c.queue.fetchMaxBytes.toInt,
  .between "queue.fetch_max_wait_ms" 1 60000 c.queue.fetchMaxWaitMs.toInt,
  .nonempty "queue.marker_topic" c.queue.markerTopic.length,
  .between "queue.max_messages" 1 100000 c.queue.maxMessages.toNat,
  .atLeast "queue.retry_initial_ms" 1 c.queue.retryInitialMs.toNat,
  .atLeast "queue.retry_max_ms" 1 c.queue.retryMaxMs.toNat,
  .nonempty "queue.row_change_topic" c.queue.rowChangeTopic.length,
  .between "shutdown_timeout_secs" 1 600 c.shutdownTimeoutSecs.toNat,
  .between "store.connect_attempts" 1 100 c.store.connectAttempts.toNat,
  .nonempty "store.database" c.store.database.length,
  .atLeast "store.row_change_ttl_days" 1 c.store.rowChangeTtlDays.toNat,
  .atLeast "store.tx_info_ttl_days" 1 c.store.txInfoTtlDays.toNat,
  .nonempty "store.url" c.store.url.length,
  .between "sweeper.batch_limit" 1 100000 c.sweeper.batchLimit.toNat,
  .atLeast "sweeper.interval_secs" 1 c.sweeper.intervalSecs.toNat,
  .between "sweeper.lookback_hours" 1 8760 c.sweeper.lookbackHours.toNat]

/-- The broken limits. -/
def violations (c : Config) : List (String × Limit) :=
  (c.bounds.filter fun b => !b.holds).map fun b => (b.path, b.limit)

/-- Whether a configuration may be used. -/
def check (c : Config) : Except ConfigFault Unit :=
  if !c.violations.isEmpty then .error (.limits c.violations)
  else if c.queue.rowChangeTopic = c.queue.markerTopic then .error .sameTopics
  else if c.queue.retryMaxMs < c.queue.retryInitialMs then .error .retryOrder
  else if c.cursor.ns.isEmpty then .error .emptyNamespace
  else .ok ()

end AuditTrail.Config
