import AuditTrail.Record

/-!
# The store

Row changes are only ever appended. There is one transaction for each GTID, and of two versions of a transaction the one with
the higher status stays; with equal status the later one does. Whole classes of calls can be made to fail, and a failed call
changes nothing.
-/

namespace AuditTrail

/-- What is stored, which calls fail, and how many writes have succeeded. -/
structure Store where
  rows : List StoredChange := []
  transactions : List Transaction := []
  failInserts : Bool := false
  failQueries : Bool := false
  failUpserts : Bool := false
  insertBatches : Nat := 0
  upsertBatches : Nat := 0
  deriving DecidableEq, Repr

namespace Store

/-- Fails when queries are made to fail. -/
def checkQueries (s : Store) : Except Error Unit :=
  if s.failQueries then .error (.store "injected query failure") else .ok ()

/-- Whether the store answers. -/
def ping (s : Store) : Except Error Unit := s.checkQueries

/-- Appends rows. -/
def insert (s : Store) (rows : List StoredChange) : Except Error Store :=
  if s.failInserts then .error (.store "injected insert failure")
  else .ok { s with rows := s.rows ++ rows, insertBatches := s.insertBatches + 1 }

/-- Puts one transaction among those of other GTIDs, unless a processed one would become unprocessed. -/
def put (t : Transaction) : List Transaction → List Transaction
  | [] => [t]
  | u :: rest =>
    if u.gtid = t.gtid then (if t.status.code < u.status.code then u else t) :: rest else u :: put t rest

/-- Writes transactions in their order. -/
def upsert (s : Store) (ts : List Transaction) : Except Error Store :=
  if s.failUpserts then .error (.store "injected upsert failure")
  else .ok { s with transactions := ts.foldl (fun acc t => put t acc) s.transactions, upsertBatches := s.upsertBatches + 1 }

/-- The transaction with that GTID. -/
def lookup (s : Store) (gtid : String) : Option Transaction := s.transactions.find? (·.gtid == gtid)

/-- The rows with that GTID, in the order of a record. -/
def rowsWith (s : Store) (gtid : String) : List StoredChange := recordOrder (s.rows.filter (·.gtid == gtid))

/-- Reads the transaction with that GTID. -/
def transaction (s : Store) (gtid : String) : Except Error (Option Transaction) := do
  s.checkQueries
  return s.lookup gtid

/-- Reads the rows of one transaction. -/
def rowsOf (s : Store) (gtid : String) : Except Error (List StoredChange) := do
  s.checkQueries
  return s.rowsWith gtid

/-- Reads the rows of several transactions, grouped. A GTID without rows has no group. -/
def rowsOfAll (s : Store) (gtids : List String) : Except Error (List (String × List StoredChange)) := do
  s.checkQueries
  return grouped (s.rows.filter fun r => gtids.contains r.gtid)

/-- Unprocessed transactions committed at or after an instant, the newest first. -/
def openSince (s : Store) (since : Instant) : List Transaction :=
  (s.transactions.filter fun t => !t.isProcessed && since ≤ t.commitTime).mergeSort fun a b => b.commitTime ≤ a.commitTime

/-- Reads unprocessed transactions committed at or after an instant, the newest first and at most `limit`. -/
def unprocessed (s : Store) (since : Instant) (limit : Nat) : Except Error (List Transaction) := do
  s.checkQueries
  return (s.openSince since).take limit

/-- Counts the unprocessed transactions committed before an instant. -/
def countBefore (s : Store) (cutoff : Instant) : Except Error Nat := do
  s.checkQueries
  return (s.transactions.filter fun t => !t.isProcessed && t.commitTime < cutoff).length

/-- All transactions, ordered by GTID. -/
def byGtid (s : Store) : List Transaction := s.transactions.mergeSort fun a b => a.gtid ≤ b.gtid

end Store

end AuditTrail
