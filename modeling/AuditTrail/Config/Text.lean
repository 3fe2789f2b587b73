import AuditTrail.Config.Sections

/-!
# The text of a configuration

A configuration is written as JSON, section by section. A password is never written, only that there is one.
-/

namespace AuditTrail.Config

open Json (renderFields renderString renderInt)

/-- A natural number of 64 bits. -/
def renderWord (n : UInt64) : String := renderInt n.toNat

/-- A truth value. -/
def renderBool (b : Bool) : String := (Json.bool b).render

/-- What stands for a value that may be missing. -/
def renderOptional (write : α → String) : Option α → String
  | some a => write a
  | none => Json.null.render

/-- The text of the section on the queue. -/
def QueueSection.write (q : QueueSection) : String :=
  renderFields [
    ("brokers", (Json.Codec.list .string).write q.brokers), ("row_change_topic", renderString q.rowChangeTopic),
    ("marker_topic", renderString q.markerTopic), ("start_offset", StartOffset.variants.codec.write q.startOffset),
    ("max_messages", renderWord q.maxMessages), ("empty_poll_delay_ms", renderWord q.emptyPollDelayMs),
    ("fetch_max_bytes", renderInt q.fetchMaxBytes.toInt), ("fetch_max_wait_ms", renderInt q.fetchMaxWaitMs.toInt),
    ("connect_timeout_secs", renderWord q.connectTimeoutSecs), ("retry_initial_ms", renderWord q.retryInitialMs),
    ("retry_max_ms", renderWord q.retryMaxMs)]

/-- The text of the section on the store. -/
def StoreSection.write (s : StoreSection) : String :=
  renderFields [
    ("url", renderString s.url), ("database", renderString s.database), ("user", renderString s.user),
    ("password", renderOptional (fun _ => renderString Secret.mask) s.password), ("compression", renderBool s.compression),
    ("init_schema", renderBool s.initSchema), ("row_change_ttl_days", renderInt s.rowChangeTtlDays.toNat),
    ("tx_info_ttl_days", renderInt s.txInfoTtlDays.toNat), ("connect_attempts", renderInt s.connectAttempts.toNat),
    ("connect_retry_interval_secs", renderWord s.connectRetryIntervalSecs)]

/-- The text of the section on cursors. -/
def CursorSection.write (c : CursorSection) : String :=
  renderFields [("path", renderString c.path), ("namespace", renderString c.ns)]

/-- The text of the section on batches. -/
def BatchSection.write (b : BatchSection) : String :=
  renderFields [
    ("size", renderWord b.size), ("interval_ms", renderWord b.intervalMs), ("channel_capacity", renderWord b.channelCapacity)]

/-- The text of the section on the correlator. -/
def CorrelatorSection.write (c : CorrelatorSection) : String :=
  renderFields [
    ("max_attempts", renderInt c.maxAttempts.toNat), ("retry_interval_ms", renderWord c.retryIntervalMs),
    ("channel_capacity", renderWord c.channelCapacity)]

/-- The text of the section on the sweeper. -/
def SweeperSection.write (s : SweeperSection) : String :=
  renderFields [
    ("interval_secs", renderWord s.intervalSecs), ("lookback_hours", renderWord s.lookbackHours),
    ("batch_limit", renderWord s.batchLimit)]

/-- The text of the section on delivery. -/
def DeliverySection.write (d : DeliverySection) : String := renderFields [("channel_capacity", renderWord d.channelCapacity)]

/-- The text of the section on metrics. -/
def MetricsSection.write (m : MetricsSection) : String :=
  renderFields [("listen", renderOptional (fun a => renderString a.render) m.listen)]

/-- The text of a configuration. -/
def write (c : Config) : String :=
  renderFields [
    ("queue", c.queue.write), ("store", c.store.write), ("cursor", c.cursor.write), ("batch", c.batch.write),
    ("correlator", c.correlator.write), ("sweeper", c.sweeper.write), ("delivery", c.delivery.write),
    ("filter", c.filter.write), ("metrics", c.metrics.write), ("shutdown_timeout_secs", renderWord c.shutdownTimeoutSecs)]

end AuditTrail.Config
