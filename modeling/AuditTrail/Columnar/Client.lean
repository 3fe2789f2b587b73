import AuditTrail.Columnar.Exchange
import AuditTrail.Columnar.Schema
import AuditTrail.Columnar.Sql
import AuditTrail.Record

/-!
# The columnar store

What the pipeline asks of the columnar database. Connecting asks for a sign of life until there is one or the attempts are used up,
and then creates the schema if it is told to; the first statement that fails ends it. Nothing is sent for no rows.
-/

namespace AuditTrail.Columnar

namespace Settings

/-- A request with the database of the settings selected. -/
def request (s : Settings) (body : Body) : Request := ⟨some s.database, s.user, s.password, body⟩

/-- A request with no database selected. -/
def requestWithoutDatabase (s : Settings) (body : Body) : Request := ⟨none, s.user, s.password, body⟩

end Settings

open Use

/-- The answer to a statement that selects rows. -/
def select (s : Settings) (what template : String) (columns : List String) (args : List Argument) : Use Octets :=
  match fill template columns args with
  | some sql => send what (s.request (.statement (sql ++ " FORMAT RowBinary")))
  | none => fail what

/-- The first value of an answer, which has to be there. -/
def first (what : String) (take : Take α) (answer : Octets) : Use α :=
  match take answer with
  | some (a, _) => pure a
  | none => fail what

/-- All rows of an answer. -/
def all (what : String) (take : Take α) (answer : Octets) : Use (List α) :=
  match takeAll take answer.length answer with
  | some rows => pure rows
  | none => fail what

/-- The row changes of some rows. -/
def changes (rows : List ChangeRow) : Use (List StoredChange) := ofExcept (rows.mapM ChangeRow.toStored)

/-- The transactions of some rows. -/
def transactions (rows : List TransactionRow) : Use (List Transaction) := ofExcept (rows.mapM TransactionRow.toStored)

/-- Asks for a sign of life. -/
def ping (s : Settings) : Use Unit := do
  let answer ← select s "ping" "SELECT 1" [] []
  let _ ← first "ping" (takeUnsigned 1) answer
  return

/-- Asks for a sign of life, and up to `more` times again as long as there is none. -/
def pingUpTo (s : Settings) : (more : Nat) → Use Unit
  | 0 => ping s
  | more + 1 => tryCatch (ping s) fun _ => pingUpTo s more

/-- Runs a statement without arguments and columns, whose answer does not matter. -/
def execute (what : String) (request : Body → Request) (template : String) : Use Unit :=
  match plain template with
  | some sql => do
    let _ ← send what (request (.statement sql))
    return
  | none => fail what

/-- Creates the database and both tables where they are missing. -/
def initSchema (s : Settings) : Use Unit := do
  execute "create database" s.requestWithoutDatabase s.createDatabase
  execute "create table" s.request s.createChangeTable
  execute "create table" s.request s.createTransactionTable

/-- Connects to the database. There is one attempt at least. -/
def connect (s : Settings) : Use Unit := do
  pingUpTo s (s.connectAttempts.toNat - 1)
  if s.initSchema then initSchema s

/-- Adds rows to a table. -/
def insertInto (s : Settings) (what table : String) (columns : List String) (rows : List Octets) : Use Unit := do
  if rows.isEmpty then return
  let sql := "INSERT INTO " ++ table ++ "(" ++ columnList columns ++ ") FORMAT RowBinary"
  let _ ← send what (s.request (.rows sql rows.flatten))
  return

/-- Stores row changes. -/
def insertChanges (s : Settings) (rows : List StoredChange) : Use Unit :=
  insertInto s "insert row changes" ChangeRow.table ChangeRow.columns (rows.map fun c => (ChangeRow.ofStored c).write)

/-- Stores transactions, each beside what is stored of it. -/
def upsertTransactions (s : Settings) (ts : List Transaction) : Use Unit :=
  insertInto s "upsert transactions" TransactionRow.table TransactionRow.columns
    (ts.map fun t => (TransactionRow.ofStored t).write)

/-- The transaction with a GTID. -/
def transaction (s : Settings) (gtid : String) : Use (Option Transaction) := do
  let what := "get transaction"
  let answer ← select s what "SELECT ?fields FROM tx_info FINAL WHERE gtid = ? LIMIT 1" TransactionRow.columns [.string gtid]
  if answer.isEmpty then return none
  let row ← first what TransactionRow.take answer
  return (← transactions [row]).head?

/-- The row changes with a GTID, in the order in which the database gives them. -/
def changesOf (s : Settings) (gtid : String) : Use (List StoredChange) := do
  let what := "list row changes"
  let answer ← select s what
    "SELECT ?fields FROM row_change_event WHERE gtid = ? ORDER BY event_time, queue_partition, queue_offset"
    ChangeRow.columns [.string gtid]
  changes (← all what ChangeRow.take answer)

/-- The row changes with one of some GTIDs, by GTID and in the order of a record. -/
def changesOfAll (s : Settings) (gtids : List String) : Use (List (String × List StoredChange)) := do
  if gtids.isEmpty then return []
  let what := "list row changes for set"
  let answer ← select s what "SELECT ?fields FROM row_change_event WHERE has(?, gtid)" ChangeRow.columns [.strings gtids]
  return grouped (← changes (← all what ChangeRow.take answer))

/-- The newest transactions that are unprocessed and were committed since an instant. -/
def unprocessed (s : Settings) (since : Instant) (limit : Nat) : Use (List Transaction) := do
  let what := "list unprocessed"
  let answer ← select s what
    ("SELECT ?fields FROM tx_info FINAL WHERE status = ? AND commit_time >= fromUnixTimestamp64Milli(?) " ++
      "ORDER BY commit_time DESC LIMIT ?")
    TransactionRow.columns [.int Status.unprocessed.code, .int since.millis, .int limit]
  transactions (← all what TransactionRow.take answer)

/-- How many transactions are unprocessed and were committed before an instant. -/
def countUnprocessedBefore (s : Settings) (cutoff : Instant) : Use Nat := do
  let what := "count abandoned"
  let answer ← select s what
    "SELECT count() FROM tx_info FINAL WHERE status = ? AND commit_time < fromUnixTimestamp64Milli(?)"
    [] [.int Status.unprocessed.code, .int cutoff.millis]
  first what (takeUnsigned 8) answer

end AuditTrail.Columnar
