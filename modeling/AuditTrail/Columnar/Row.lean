import AuditTrail.Columnar.Binary
import AuditTrail.Stored

/-!
# Rows of the tables

How row changes and transactions lie in their tables. Times are milliseconds since the epoch there, rounded down; images are the
text of their JSON, actions go by their names and statuses by their numbers.
-/

namespace AuditTrail.Columnar

/-- The instant of a stored time. -/
def instant (ms : Int) : Except Error Instant :=
  match Instant.ofMillis? ms with
  | some t => .ok t
  | none => .error (.store ("timestamp out of range: " ++ Json.renderInt ms))

/-- A row of the table of row changes. -/
structure ChangeRow where
  gtid : String
  db : String
  tbl : String
  action : String
  eventTime : Int
  data : String
  queuePartition : Int
  queueOffset : Int
  ingestedAt : Int
  deriving DecidableEq, Repr

namespace ChangeRow

/-- The table of row changes. -/
def table : String := "row_change_event"

/-- The columns in the order in which they travel. -/
def columns : List String :=
  ["gtid", "db", "tbl", "action", "event_time", "data", "queue_partition", "queue_offset", "ingested_at"]

/-- The row of a row change. -/
def ofStored (c : StoredChange) : ChangeRow :=
  ⟨c.gtid, c.database, c.table, c.action.name, c.eventTime.millis, c.images.write, c.partition, c.offset,
    c.ingestedAt.millis⟩

/-- The row change of a row. -/
def toStored (r : ChangeRow) : Except Error StoredChange := do
  let images ← (Images.codec.decode (Utf8.encode r.data)).mapError .json
  let action ← RowAction.parse r.action
  let eventTime ← instant r.eventTime
  let ingestedAt ← instant r.ingestedAt
  .ok ⟨r.gtid, r.db, r.tbl, action, eventTime, images, r.queuePartition, r.queueOffset, ingestedAt⟩

/-- The octets of a row. -/
def write (r : ChangeRow) : Octets :=
  string r.gtid ++ string r.db ++ string r.tbl ++ string r.action ++ fixed 8 r.eventTime ++ string r.data ++
    fixed 4 r.queuePartition ++ fixed 8 r.queueOffset ++ fixed 8 r.ingestedAt

/-- Takes a row. -/
def take : Take ChangeRow := fun s => do
  let (gtid, s) ← takeString s
  let (db, s) ← takeString s
  let (tbl, s) ← takeString s
  let (action, s) ← takeString s
  let (eventTime, s) ← takeSigned 8 s
  let (data, s) ← takeString s
  let (queuePartition, s) ← takeSigned 4 s
  let (queueOffset, s) ← takeSigned 8 s
  let (ingestedAt, s) ← takeSigned 8 s
  some (⟨gtid, db, tbl, action, eventTime, data, queuePartition, queueOffset, ingestedAt⟩, s)

end ChangeRow

/-- A row of the table of transactions. -/
structure TransactionRow where
  gtid : String
  context : String
  commitTime : Int
  status : Nat
  deriving DecidableEq, Repr

namespace TransactionRow

/-- The table of transactions. -/
def table : String := "tx_info"

/-- The columns in the order in which they travel. -/
def columns : List String := ["gtid", "context", "commit_time", "status"]

/-- The row of a transaction. -/
def ofStored (t : Transaction) : TransactionRow := ⟨t.gtid, t.context, t.commitTime.millis, t.status.code⟩

/-- The transaction of a row. -/
def toStored (r : TransactionRow) : Except Error Transaction := do
  let commitTime ← instant r.commitTime
  let status ← Status.ofCode r.status
  .ok ⟨r.gtid, r.context, commitTime, status⟩

/-- The octets of a row. -/
def write (r : TransactionRow) : Octets := string r.gtid ++ string r.context ++ fixed 8 r.commitTime ++ fixed 1 r.status

/-- Takes a row. -/
def take : Take TransactionRow := fun s => do
  let (gtid, s) ← takeString s
  let (context, s) ← takeString s
  let (commitTime, s) ← takeSigned 8 s
  let (status, s) ← takeUnsigned 1 s
  some (⟨gtid, context, commitTime, status⟩, s)

end TransactionRow

end AuditTrail.Columnar
