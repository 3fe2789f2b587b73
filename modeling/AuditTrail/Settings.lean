import AuditTrail.Filter
import AuditTrail.Start

/-!
# Settings

What the parts of a pipeline can be told. Durations are in milliseconds unless their name says otherwise.
-/

namespace AuditTrail

/-- How partitions are read. -/
structure FeedSettings where
  /-- Where to start without a cursor. -/
  start : StartOffset := .earliest
  /-- The most messages of one fetch. -/
  maxMessages : Nat := 500
  /-- How long to wait after an empty fetch. -/
  emptyDelay : Nat := 100
  /-- How long to wait after a first failed fetch; the wait doubles with every further failure. -/
  retryInitial : Nat := 100
  /-- The longest wait after a failed fetch. -/
  retryMax : Nat := 10000
  deriving DecidableEq, Repr

/-- How rows are batched. -/
structure WriterSettings where
  /-- The number of rows that makes a batch. -/
  batchSize : Nat := 512
  /-- How long rows wait for a batch at most. -/
  flushInterval : Nat := 1000
  capacity : Nat := 1024
  deriving DecidableEq, Repr

/-- How markers are correlated. -/
structure CorrelatorSettings where
  /-- Lookups for each marker, with the first. -/
  maxAttempts : Nat := 3
  /-- How long to wait between lookups. -/
  retryInterval : Nat := 1000
  capacity : Nat := 500
  deriving DecidableEq, Repr

/-- How deferred transactions are swept. -/
structure SweeperSettings where
  /-- How long to wait between cycles. -/
  interval : Nat := 10000
  /-- How many seconds back a transaction is still looked at. -/
  lookback : Nat := 72 * 3600
  /-- The most transactions of one cycle. -/
  batchLimit : Nat := 1000
  deriving DecidableEq, Repr

/-- How the brokers of the queue are reached. -/
structure BrokerSettings where
  brokers : List String
  connectTimeout : Nat
  /-- The most bytes of one fetch. -/
  fetchMaxBytes : Int32
  /-- How long a broker may hold back a fetch. -/
  fetchMaxWait : Nat
  deriving DecidableEq, Repr

/-- What a pipeline is told. -/
structure PipelineSettings where
  rowChangeTopic : String := "binlog"
  markerTopic : String := "tx_info"
  feed : FeedSettings := {}
  writer : WriterSettings := {}
  correlator : CorrelatorSettings := {}
  sweeper : SweeperSettings := {}
  deliveryCapacity : Nat := 1024
  filter : FilterConfig := .default
  deriving DecidableEq, Repr

end AuditTrail
