import AuditTrail.Stored

/-!
# Audit records

A record joins a marker with the row changes of its transaction, in the order of event time, partition and offset. `grouped`
sorts any rows into such groups by their GTID.
-/

namespace AuditTrail

/-- A transaction with the row changes it committed. -/
structure AuditRecord where
  gtid : String
  context : String
  commitTime : Instant
  changes : List StoredChange
  deriving DecidableEq, Repr

namespace AuditRecord

/-- The record of a transaction with its rows, put in order. -/
def ofChanges (gtid context : String) (commitTime : Instant) (rows : List StoredChange) : AuditRecord :=
  ⟨gtid, context, commitTime, recordOrder rows⟩

/-- The record of a stored transaction with its rows. -/
def ofTransaction (t : Transaction) (rows : List StoredChange) : AuditRecord :=
  ofChanges t.gtid t.context t.commitTime rows

/-- Names without repetition, in the order of their first occurrence. -/
def distinct (names : List String) : List String :=
  names.foldl (fun seen n => if n ∈ seen then seen else seen ++ [n]) []

/-- The tables that the transaction touched, in the order it first did. -/
def tables (r : AuditRecord) : List String := distinct (r.changes.map (·.qualifiedTable))

/-- A short description. -/
def describe (r : AuditRecord) : String :=
  "gtid=" ++ r.gtid ++ " context=" ++ r.context ++ " changes=" ++ toString r.changes.length ++ " committed=" ++
    r.commitTime.render .offset

/-- The text of a record. -/
def write (r : AuditRecord) : String :=
  Json.renderFields [
    ("commit_time", Json.Codec.time.write r.commitTime), ("context", Json.renderString r.context),
    ("gtid", Json.renderString r.gtid), ("row_changes", Json.renderArray (r.changes.map (·.write)))]

end AuditRecord

/-- Rows of every GTID among them, each group in the order of a record. -/
def grouped (rows : List StoredChange) : List (String × List StoredChange) :=
  (AuditRecord.distinct (rows.map (·.gtid))).map fun g => (g, recordOrder (rows.filter (·.gtid == g)))

end AuditTrail
