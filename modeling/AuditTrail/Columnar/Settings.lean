import AuditTrail.Secret

/-!
# Settings of the columnar database

How the database is reached, and how long it keeps rows.
-/

namespace AuditTrail.Columnar

/-- How the database is used. Durations are in milliseconds unless their name says otherwise. -/
structure Settings where
  url : String := "http://localhost:8123"
  database : String := "audit"
  user : String := "default"
  password : Option Secret := none
  /-- Whether requests and answers are compressed. -/
  compression : Bool := true
  /-- Whether the database and its tables are created when the store connects. -/
  initSchema : Bool := true
  /-- How many days a row change is kept. -/
  rowChangeDays : UInt32 := 30
  /-- How many days the status of a transaction is kept. -/
  transactionDays : UInt32 := 60
  /-- How often the database is asked for a sign of life before the store gives up. -/
  connectAttempts : UInt32 := 3
  connectRetryInterval : Nat := 5000
  deriving DecidableEq, Repr

end AuditTrail.Columnar
