import AuditTrail.Event

/-!
# Stored rows and transactions

The store keeps every row change with its place in the queue, and one row for each transaction whose marker has been seen. The
status of a transaction only ever moves from unprocessed to processed.
-/

namespace AuditTrail

/-- How far a transaction has come. -/
inductive Status where
  /-- Its marker has been seen and no row change joined. -/
  | unprocessed
  /-- It has been joined and passed on. -/
  | processed
  deriving DecidableEq, Repr

namespace Status

/-- The number that is stored for a status; the greater one wins where two versions of a transaction meet. -/
def code : Status → Nat
  | .unprocessed => 1
  | .processed => 2

/-- The status with that number. -/
def ofCode (n : Nat) : Except Error Status :=
  if n = 1 then .ok .unprocessed
  else if n = 2 then .ok .processed
  else .error (.store ("unknown transaction status code " ++ toString n))

/-- The name of a status. -/
def name : Status → String
  | .unprocessed => "unprocessed"
  | .processed => "processed"

/-- The statuses under their names. -/
def variants : Json.Variants Status := ⟨[("unprocessed", .unprocessed), ("processed", .processed)], name⟩

end Status

/-- A row change with its place in the queue and the time it was taken in. -/
structure StoredChange where
  gtid : String
  database : String
  table : String
  action : RowAction
  eventTime : Instant
  images : Images
  partition : Int
  offset : Int
  ingestedAt : Instant
  deriving DecidableEq, Repr

namespace StoredChange

/-- The row to store for an event. -/
def ofEvent (e : RowChange) (partition offset : Int) (ingestedAt : Instant) : StoredChange :=
  ⟨e.gtid, e.database, e.table, e.action, e.time, e.images, partition, offset, ingestedAt⟩

/-- The qualified name of the table. -/
def qualifiedTable (c : StoredChange) : String := c.database ++ "." ++ c.table

/-- The order of rows inside a record: by event time, then by partition, then by offset. -/
def le (a b : StoredChange) : Bool :=
  a.eventTime < b.eventTime || (a.eventTime == b.eventTime &&
    (a.partition < b.partition || (a.partition == b.partition && a.offset ≤ b.offset)))

/-- A row that is being read. -/
structure Draft where
  gtid : Option String
  database : Option String
  table : Option String
  action : Option RowAction
  eventTime : Option Instant
  images : Option Images
  partition : Option Int
  offset : Option Int
  ingestedAt : Option Instant

/-- How a row is read. No field may be missing. -/
def shape : Json.Shape Draft StoredChange where
  typeName := "StoredRowChange"
  empty := ⟨none, none, none, none, none, none, none, none, none⟩
  fields := [
    .ofCodec "gtid" .string Draft.gtid fun v d => { d with gtid := some v },
    .ofCodec "database" .string Draft.database fun v d => { d with database := some v },
    .ofCodec "table" .string Draft.table fun v d => { d with table := some v },
    .ofCodec "action" RowAction.variants.codec Draft.action fun v d => { d with action := some v },
    .ofCodec "event_time" .time Draft.eventTime fun v d => { d with eventTime := some v },
    .ofCodec "data" Images.codec Draft.images fun v d => { d with images := some v },
    .ofCodec "partition" .int32 Draft.partition fun v d => { d with partition := some v },
    .ofCodec "offset" .int64 Draft.offset fun v d => { d with offset := some v },
    .ofCodec "ingested_at" .time Draft.ingestedAt fun v d => { d with ingestedAt := some v }]
  finish d := do
    let gtid ← Json.required "gtid" d.gtid
    let database ← Json.required "database" d.database
    let table ← Json.required "table" d.table
    let action ← Json.required "action" d.action
    let eventTime ← Json.required "event_time" d.eventTime
    let images ← Json.required "data" d.images
    let partition ← Json.required "partition" d.partition
    let offset ← Json.required "offset" d.offset
    let ingestedAt ← Json.required "ingested_at" d.ingestedAt
    .ok ⟨gtid, database, table, action, eventTime, images, partition, offset, ingestedAt⟩

/-- The text of a row. -/
def write (c : StoredChange) : String :=
  Json.renderFields [
    ("gtid", Json.renderString c.gtid), ("database", Json.renderString c.database), ("table", Json.renderString c.table),
    ("action", Json.renderString c.action.name), ("event_time", Json.Codec.time.write c.eventTime),
    ("data", c.images.write), ("partition", Json.renderInt c.partition), ("offset", Json.renderInt c.offset),
    ("ingested_at", Json.Codec.time.write c.ingestedAt)]

/-- A row as JSON. -/
def codec : Json.Codec StoredChange := shape.codec write

end StoredChange

/-- Rows in the order of a record; rows with one place keep their order. -/
def recordOrder (rows : List StoredChange) : List StoredChange := rows.mergeSort StoredChange.le

/-- A transaction whose marker has been seen. -/
structure Transaction where
  gtid : String
  context : String
  commitTime : Instant
  status : Status
  deriving DecidableEq, Repr

namespace Transaction

/-- The transaction of a marker. -/
def ofMarker (m : Marker) (status : Status) : Transaction := ⟨m.gtid, m.context, m.commitTime, status⟩

/-- The same transaction, processed. -/
def toProcessed (t : Transaction) : Transaction := { t with status := .processed }

/-- Whether the transaction has been joined and passed on. -/
def isProcessed (t : Transaction) : Bool := t.status == .processed

/-- A transaction that is being read. -/
structure Draft where
  gtid : Option String
  context : Option String
  commitTime : Option Instant
  status : Option Status

/-- How a transaction is read. No field may be missing. -/
def shape : Json.Shape Draft Transaction where
  typeName := "StoredTransaction"
  empty := ⟨none, none, none, none⟩
  fields := [
    .ofCodec "gtid" .string Draft.gtid fun v d => { d with gtid := some v },
    .ofCodec "context" .string Draft.context fun v d => { d with context := some v },
    .ofCodec "commit_time" .time Draft.commitTime fun v d => { d with commitTime := some v },
    .ofCodec "status" Status.variants.codec Draft.status fun v d => { d with status := some v }]
  finish d := do
    let gtid ← Json.required "gtid" d.gtid
    let context ← Json.required "context" d.context
    let commitTime ← Json.required "commit_time" d.commitTime
    let status ← Json.required "status" d.status
    .ok ⟨gtid, context, commitTime, status⟩

/-- The text of a transaction. -/
def write (t : Transaction) : String :=
  Json.renderFields [
    ("gtid", Json.renderString t.gtid), ("context", Json.renderString t.context),
    ("commit_time", Json.Codec.time.write t.commitTime), ("status", Json.renderString t.status.name)]

/-- A transaction as JSON. -/
def codec : Json.Codec Transaction := shape.codec write

end Transaction

end AuditTrail
