import AuditTrail.Columnar.Settings
import AuditTrail.Config.Sections
import AuditTrail.Settings

/-!
# What the parts are told

The settings of each part, as a configuration gives them. Seconds and hours become milliseconds and seconds, and an empty password
is none.
-/

namespace AuditTrail.Config

/-- How long tasks may take to end, in milliseconds. -/
def shutdownTimeout (c : Config) : Nat := c.shutdownTimeoutSecs.toNat * 1000

/-- How partitions are read. -/
def feedSettings (c : Config) : FeedSettings where
  start := c.queue.startOffset
  maxMessages := c.queue.maxMessages.toNat
  emptyDelay := c.queue.emptyPollDelayMs.toNat
  retryInitial := c.queue.retryInitialMs.toNat
  retryMax := c.queue.retryMaxMs.toNat

/-- What the pipeline is told. -/
def pipelineSettings (c : Config) : PipelineSettings where
  rowChangeTopic := c.queue.rowChangeTopic
  markerTopic := c.queue.markerTopic
  feed := c.feedSettings
  writer := ⟨c.batch.size.toNat, c.batch.intervalMs.toNat, c.batch.channelCapacity.toNat⟩
  correlator := ⟨c.correlator.maxAttempts.toNat, c.correlator.retryIntervalMs.toNat, c.correlator.channelCapacity.toNat⟩
  sweeper := ⟨c.sweeper.intervalSecs.toNat * 1000, c.sweeper.lookbackHours.toNat * 3600, c.sweeper.batchLimit.toNat⟩
  deliveryCapacity := c.delivery.channelCapacity.toNat
  filter := c.filter

/-- How the brokers are reached. -/
def brokerSettings (c : Config) : BrokerSettings where
  brokers := c.queue.brokers
  connectTimeout := c.queue.connectTimeoutSecs.toNat * 1000
  fetchMaxBytes := c.queue.fetchMaxBytes
  fetchMaxWait := c.queue.fetchMaxWaitMs.toNatClampNeg

/-- How the columnar database is used. -/
def columnarSettings (c : Config) : Columnar.Settings where
  url := c.store.url
  database := c.store.database
  user := c.store.user
  password := c.store.password.filter fun p => !p.isEmpty
  compression := c.store.compression
  initSchema := c.store.initSchema
  rowChangeDays := c.store.rowChangeTtlDays
  transactionDays := c.store.txInfoTtlDays
  connectAttempts := c.store.connectAttempts
  connectRetryInterval := c.store.connectRetryIntervalSecs.toNat * 1000

end AuditTrail.Config
