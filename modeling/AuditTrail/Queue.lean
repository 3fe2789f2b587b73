import AuditTrail.Json.Printer
import AuditTrail.Error
import AuditTrail.Start

/-!
# The queue

A topic has a fixed number of partitions, each a growing log of messages; the offset of a message is its place in the log. Once
the queue is closed, a fetch from the end of a log says so.
-/

namespace AuditTrail

/-- A message of a partition. -/
structure Message where
  topic : String
  partition : Int
  offset : Int
  payload : Octets
  deriving DecidableEq, Repr

/-- The topics, and whether the queue is closed or made to fail. -/
structure Queue where
  /-- For every topic the logs of its partitions. -/
  topics : List (String × List (List Octets)) := []
  closed : Bool := false
  failFetches : Bool := false
  deriving DecidableEq, Repr

namespace Queue

/-- Creates a topic with at least one partition. A topic that exists is kept. -/
def createTopic (q : Queue) (topic : String) (partitions : Nat) : Queue :=
  if (q.topics.lookup topic).isSome then q
  else { q with topics := q.topics ++ [(topic, List.replicate (max partitions 1) [])] }

/-- The log of a partition. -/
def log? (q : Queue) (topic : String) (partition : Int) : Option (List Octets) := do
  let logs ← q.topics.lookup topic
  if partition < 0 then none else logs[partition.toNat]?

/-- The name of a partition. -/
def partitionName (topic : String) (partition : Int) : String := topic ++ "/" ++ Json.renderInt partition

/-- No such topic. -/
def noTopic (topic : String) : Error := .notFound ("topic '" ++ topic ++ "'")

/-- No such partition. -/
def noPartition (topic : String) (partition : Int) : Error := .notFound ("partition " ++ partitionName topic partition)

/-- Appends a payload to a partition and returns its offset. -/
def publish (q : Queue) (topic : String) (partition : Int) (payload : Octets) : Except Error (Queue × Int) :=
  match q.topics.lookup topic, q.log? topic partition with
  | none, _ => .error (noTopic topic)
  | _, none => .error (noPartition topic partition)
  | some logs, some log =>
    let logs := logs.set partition.toNat (log ++ [payload])
    .ok ({ q with topics := q.topics.map fun t => if t.1 = topic then (topic, logs) else t }, log.length)

/-- The partitions of a topic. -/
def partitions (q : Queue) (topic : String) : Except Error (List Int) :=
  match q.topics.lookup topic with
  | none => .error (noTopic topic)
  | some logs => .ok ((List.range logs.length).map Int.ofNat)

/-- The number of messages in a partition, zero when there is none such. -/
def size (q : Queue) (topic : String) (partition : Int) : Nat := ((q.log? topic partition).map List.length).getD 0

/-- The offset at which reading starts. -/
def offsetAt (q : Queue) (topic : String) (partition : Int) : StartOffset → Int
  | .earliest => 0
  | .latest => q.size topic partition

/-- The messages of a log from an offset on. -/
def messagesFrom (topic : String) (partition : Int) (start : Nat) : List Octets → List Message
  | [] => []
  | p :: rest => ⟨topic, partition, start, p⟩ :: messagesFrom topic partition (start + 1) rest

/-- Fetches at most `most` messages from an offset on. A negative offset stands for zero. -/
def fetch (q : Queue) (topic : String) (partition offset : Int) (most : Nat) : Except Error (List Message) :=
  if q.failFetches then .error (.queue "injected fetch failure")
  else match q.log? topic partition with
    | none => .error (noPartition topic partition)
    | some log =>
      if log.length ≤ offset.toNat ∧ q.closed then .error (.queueClosed (partitionName topic partition))
      else .ok (messagesFrom topic partition offset.toNat ((log.drop offset.toNat).take most))

end Queue

end AuditTrail
