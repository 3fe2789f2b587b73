import AuditTrail.Filter
import AuditTrail.Net.SocketAddress
import AuditTrail.Secret
import AuditTrail.Start

/-!
# What is configured

A configuration has a section for each part of the program. Whatever is not configured has the value that stands here.
-/

namespace AuditTrail

namespace Config

/-- Where messages come from and how they are fetched. -/
structure QueueSection where
  brokers : List String := ["localhost:9092"]
  rowChangeTopic : String := "binlog"
  markerTopic : String := "tx_info"
  startOffset : StartOffset := .earliest
  maxMessages : UInt64 := 500
  emptyPollDelayMs : UInt64 := 100
  fetchMaxBytes : Int32 := 1048576
  fetchMaxWaitMs : Int32 := 500
  connectTimeoutSecs : UInt64 := 10
  retryInitialMs : UInt64 := 100
  retryMaxMs : UInt64 := 10000
  deriving DecidableEq, Repr

/-- The columnar database and how long it keeps rows. -/
structure StoreSection where
  url : String := "http://localhost:8123"
  database : String := "audit"
  user : String := "default"
  password : Option Secret := none
  compression : Bool := true
  initSchema : Bool := true
  rowChangeTtlDays : UInt32 := 30
  txInfoTtlDays : UInt32 := 60
  connectAttempts : UInt32 := 3
  connectRetryIntervalSecs : UInt64 := 5
  deriving DecidableEq, Repr

/-- The file that keeps cursors, and their namespace in it. -/
structure CursorSection where
  path : String := "data/cursors.redb"
  ns : String := "kafka"
  deriving DecidableEq, Repr

/-- How rows are batched. -/
structure BatchSection where
  size : UInt64 := 512
  intervalMs : UInt64 := 1000
  channelCapacity : UInt64 := 1024
  deriving DecidableEq, Repr

/-- How markers are joined with rows. -/
structure CorrelatorSection where
  maxAttempts : UInt32 := 3
  retryIntervalMs : UInt64 := 1000
  channelCapacity : UInt64 := 500
  deriving DecidableEq, Repr

/-- How deferred transactions are swept. -/
structure SweeperSection where
  intervalSecs : UInt64 := 10
  lookbackHours : UInt64 := 72
  batchLimit : UInt64 := 1000
  deriving DecidableEq, Repr

/-- How records are passed on. -/
structure DeliverySection where
  channelCapacity : UInt64 := 1024
  deriving DecidableEq, Repr

/-- Where metrics are served, if anywhere. -/
structure MetricsSection where
  listen : Option Net.SocketAddress := none
  deriving DecidableEq, Repr

end Config

open Config in
/-- A configuration. -/
structure Config where
  queue : QueueSection := {}
  store : StoreSection := {}
  cursor : CursorSection := {}
  batch : BatchSection := {}
  correlator : CorrelatorSection := {}
  sweeper : SweeperSection := {}
  delivery : DeliverySection := {}
  filter : FilterConfig := .default
  metrics : MetricsSection := {}
  /-- How long tasks may take to end. -/
  shutdownTimeoutSecs : UInt64 := 10
  deriving DecidableEq, Repr

end AuditTrail
