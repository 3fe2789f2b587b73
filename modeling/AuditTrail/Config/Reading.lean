import AuditTrail.Config.Expansion
import AuditTrail.Config.Limits
import AuditTrail.Yaml.Decode

/-!
# Reading a configuration

A configuration is a YAML document. References to the environment are replaced in its text first; what results is read, and has to
keep all limits. Members of other names than the known ones are not looked at.
-/

namespace AuditTrail.Config

open Yaml (Document Node)
open Yaml.Document (member)

/-- Reads the section on the queue. -/
def QueueSection.ofNode? (d : Document) (n : Node) : Option QueueSection := do
  let o : QueueSection := {}
  let ms ← d.members ["brokers", "row_change_topic", "marker_topic", "start_offset", "max_messages", "empty_poll_delay_ms",
    "fetch_max_bytes", "fetch_max_wait_ms", "connect_timeout_secs", "retry_initial_ms", "retry_max_ms"] n
  return {
    brokers := ← member ms "brokers" (d.list d.text) o.brokers
    rowChangeTopic := ← member ms "row_change_topic" d.text o.rowChangeTopic
    markerTopic := ← member ms "marker_topic" d.text o.markerTopic
    startOffset := ← member ms "start_offset" (d.variant StartOffset.variants.all) o.startOffset
    maxMessages := ← member ms "max_messages" d.uint64 o.maxMessages
    emptyPollDelayMs := ← member ms "empty_poll_delay_ms" d.uint64 o.emptyPollDelayMs
    fetchMaxBytes := ← member ms "fetch_max_bytes" d.int32 o.fetchMaxBytes
    fetchMaxWaitMs := ← member ms "fetch_max_wait_ms" d.int32 o.fetchMaxWaitMs
    connectTimeoutSecs := ← member ms "connect_timeout_secs" d.uint64 o.connectTimeoutSecs
    retryInitialMs := ← member ms "retry_initial_ms" d.uint64 o.retryInitialMs
    retryMaxMs := ← member ms "retry_max_ms" d.uint64 o.retryMaxMs }

/-- Reads the section on the store. -/
def StoreSection.ofNode? (d : Document) (n : Node) : Option StoreSection := do
  let o : StoreSection := {}
  let ms ← d.members ["url", "database", "user", "password", "compression", "init_schema", "row_change_ttl_days",
    "tx_info_ttl_days", "connect_attempts", "connect_retry_interval_secs"] n
  return {
    url := ← member ms "url" d.text o.url
    database := ← member ms "database" d.text o.database
    user := ← member ms "user" d.text o.user
    password := ← member ms "password" (d.optional fun n => (d.text n).map Secret.mk) o.password
    compression := ← member ms "compression" d.bool o.compression
    initSchema := ← member ms "init_schema" d.bool o.initSchema
    rowChangeTtlDays := ← member ms "row_change_ttl_days" d.uint32 o.rowChangeTtlDays
    txInfoTtlDays := ← member ms "tx_info_ttl_days" d.uint32 o.txInfoTtlDays
    connectAttempts := ← member ms "connect_attempts" d.uint32 o.connectAttempts
    connectRetryIntervalSecs := ← member ms "connect_retry_interval_secs" d.uint64 o.connectRetryIntervalSecs }

/-- Reads the section on cursors. -/
def CursorSection.ofNode? (d : Document) (n : Node) : Option CursorSection := do
  let o : CursorSection := {}
  let ms ← d.members ["path", "namespace"] n
  return {
    path := ← member ms "path" d.text o.path
    ns := ← member ms "namespace" d.text o.ns }

/-- Reads the section on batches. -/
def BatchSection.ofNode? (d : Document) (n : Node) : Option BatchSection := do
  let o : BatchSection := {}
  let ms ← d.members ["size", "interval_ms", "channel_capacity"] n
  return {
    size := ← member ms "size" d.uint64 o.size
    intervalMs := ← member ms "interval_ms" d.uint64 o.intervalMs
    channelCapacity := ← member ms "channel_capacity" d.uint64 o.channelCapacity }

/-- Reads the section on the correlator. -/
def CorrelatorSection.ofNode? (d : Document) (n : Node) : Option CorrelatorSection := do
  let o : CorrelatorSection := {}
  let ms ← d.members ["max_attempts", "retry_interval_ms", "channel_capacity"] n
  return {
    maxAttempts := ← member ms "max_attempts" d.uint32 o.maxAttempts
    retryIntervalMs := ← member ms "retry_interval_ms" d.uint64 o.retryIntervalMs
    channelCapacity := ← member ms "channel_capacity" d.uint64 o.channelCapacity }

/-- Reads the section on the sweeper. -/
def SweeperSection.ofNode? (d : Document) (n : Node) : Option SweeperSection := do
  let o : SweeperSection := {}
  let ms ← d.members ["interval_secs", "lookback_hours", "batch_limit"] n
  return {
    intervalSecs := ← member ms "interval_secs" d.uint64 o.intervalSecs
    lookbackHours := ← member ms "lookback_hours" d.uint64 o.lookbackHours
    batchLimit := ← member ms "batch_limit" d.uint64 o.batchLimit }

/-- Reads the section on delivery. -/
def DeliverySection.ofNode? (d : Document) (n : Node) : Option DeliverySection := do
  let o : DeliverySection := {}
  let ms ← d.members ["channel_capacity"] n
  return { channelCapacity := ← member ms "channel_capacity" d.uint64 o.channelCapacity }

/-- Reads the section on the filter. -/
def filterOfNode? (d : Document) (n : Node) : Option FilterConfig := do
  let o := FilterConfig.default
  let ms ← d.members ["include_tables", "exclude_tables", "mask_columns"] n
  return {
    includeTables := ← member ms "include_tables" (d.list d.text) o.includeTables
    excludeTables := ← member ms "exclude_tables" (d.list d.text) o.excludeTables
    maskColumns := ← member ms "mask_columns" (d.list d.text) o.maskColumns }

/-- Reads the section on metrics. -/
def MetricsSection.ofNode? (d : Document) (n : Node) : Option MetricsSection := do
  let o : MetricsSection := {}
  let ms ← d.members ["listen"] n
  return { listen := ← member ms "listen" (d.optional fun n => (d.text n).bind Net.SocketAddress.parse?) o.listen }

/-- Reads a configuration. -/
def ofDocument? (d : Document) : Option Config := do
  let o : Config := {}
  let ms ← d.members ["queue", "store", "cursor", "batch", "correlator", "sweeper", "delivery", "filter", "metrics",
    "shutdown_timeout_secs"] d.root
  return {
    queue := ← member ms "queue" (QueueSection.ofNode? d) o.queue
    store := ← member ms "store" (StoreSection.ofNode? d) o.store
    cursor := ← member ms "cursor" (CursorSection.ofNode? d) o.cursor
    batch := ← member ms "batch" (BatchSection.ofNode? d) o.batch
    correlator := ← member ms "correlator" (CorrelatorSection.ofNode? d) o.correlator
    sweeper := ← member ms "sweeper" (SweeperSection.ofNode? d) o.sweeper
    delivery := ← member ms "delivery" (DeliverySection.ofNode? d) o.delivery
    filter := ← member ms "filter" (filterOfNode? d) o.filter
    metrics := ← member ms "metrics" (MetricsSection.ofNode? d) o.metrics
    shutdownTimeoutSecs := ← member ms "shutdown_timeout_secs" d.uint64 o.shutdownTimeoutSecs }

/-- The configuration of a text, if it keeps all limits. -/
def ofText (env : Environment) (text : String) : Except ConfigFault Config :=
  match (Document.ofText? (expand env text)).bind ofDocument? with
  | some c => c.check.map fun () => c
  | none => .error .yaml

end AuditTrail.Config
