import AuditTrail.Columnar.Row
import AuditTrail.Columnar.Settings

/-!
# Schema

The statements that create the database and its tables where they are missing. Row changes are only ever added; of the rows of one
transaction the one with the greatest status survives. Rows expire after the days that are set.
-/

namespace AuditTrail.Columnar

namespace Settings

/-- Creates the database. -/
def createDatabase (s : Settings) : String := "CREATE DATABASE IF NOT EXISTS " ++ s.database

/-- Creates a table whose rows are kept for so many days; the description of the table ends before their number. -/
def createTable (s : Settings) (table description : String) (days : UInt32) : String :=
  "CREATE TABLE IF NOT EXISTS " ++ s.database ++ "." ++ table ++ description ++ toString days.toNat ++ " DAY"

/-- Creates the table of row changes. -/
def createChangeTable (s : Settings) : String :=
  s.createTable ChangeRow.table " (
                gtid String,
                db LowCardinality(String),
                tbl LowCardinality(String),
                action LowCardinality(String),
                event_time DateTime64(3),
                data String,
                queue_partition Int32,
                queue_offset Int64,
                ingested_at DateTime64(3)
            )
            ENGINE = MergeTree
            PARTITION BY toYYYYMMDD(ingested_at)
            ORDER BY (gtid, event_time)
            TTL toDateTime(ingested_at) + INTERVAL " s.rowChangeDays

/-- Creates the table of transactions. -/
def createTransactionTable (s : Settings) : String :=
  s.createTable TransactionRow.table " (
                gtid String,
                context String,
                commit_time DateTime64(3),
                status UInt8
            )
            ENGINE = ReplacingMergeTree(status)
            ORDER BY gtid
            TTL toDateTime(commit_time) + INTERVAL " s.transactionDays

end Settings

end AuditTrail.Columnar
