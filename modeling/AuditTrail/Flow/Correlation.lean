import AuditTrail.Flow.Channel
import AuditTrail.Services
import AuditTrail.Settings
import AuditTrail.Text.Blank

/-!
# Correlation of one marker

A marker is joined with the rows that are stored for its GTID. A marker with a blank GTID is skipped, and one whose transaction
is processed already needs nothing. Otherwise the rows are looked up a bounded number of times, with a wait between. Once there
are any, a record is sent and the transaction is written as processed; if none turn up, it is written as unprocessed. A lookup
that fails counts as one that finds nothing.
-/

namespace AuditTrail

/-- What became of a marker. -/
inductive Correlated where
  /-- It was joined with so many rows. -/
  | resolved (rows : Nat)
  | deferred
  | alreadyProcessed
  | skipped
  deriving DecidableEq, Repr

/-- The kind of outcome that is counted. -/
def Correlated.outcome : Correlated → Outcome
  | .resolved _ => .resolved
  | .deferred => .deferred
  | .alreadyProcessed => .alreadyProcessed
  | .skipped => .skipped

/-- What the correlation of a marker is doing. -/
inductive Correlation.Phase where
  | starting
  /-- It is about to look for rows. -/
  | looking (attempt : Nat)
  /-- It waits for the next attempt. -/
  | waiting (attempt due : Nat)
  /-- It sends the record of the rows found. -/
  | sending (rows : List StoredChange)
  /-- It is about to write the transaction as processed. -/
  | settling (rows : Nat)
  /-- It is about to write the transaction as unprocessed. -/
  | deferring
  | finished (result : Correlated)
  deriving DecidableEq, Repr

/-- The correlation of a marker. -/
structure Correlation where
  settings : CorrelatorSettings
  marker : Marker
  phase : Correlation.Phase := .starting
  deriving DecidableEq, Repr

namespace Correlation

/-- The number of lookups, at least one. -/
def attempts (c : Correlation) : Nat := max c.settings.maxAttempts 1

/-- The record of the marker with some rows. -/
def recordOf (m : Marker) (rows : List StoredChange) : AuditRecord := .ofChanges m.gtid m.context m.commitTime rows

/-- The correlation with its result, which is counted. -/
def finish (c : Correlation) (result : Correlated) (s : Services) : Correlation × Services :=
  ({ c with phase := .finished result }, s.record (.marker result.outcome))

/-- Looks whether there is anything to do. -/
def begin (c : Correlation) (s : Services) : Correlation × Services :=
  if Text.blank c.marker.gtid then c.finish .skipped s
  else match s.store.transaction c.marker.gtid with
    | .ok (some t) => if t.isProcessed then c.finish .alreadyProcessed s else ({ c with phase := .looking 1 }, s)
    | _ => ({ c with phase := .looking 1 }, s)

/-- Looks for rows. -/
def look (c : Correlation) (attempt now : Nat) (s : Services) : Correlation × Services :=
  let s := s.record .lookupAttempt
  let next : Phase :=
    if attempt < c.attempts then .waiting (attempt + 1) (now + c.settings.retryInterval) else .deferring
  match s.store.rowsOf c.marker.gtid with
  | .ok [] => ({ c with phase := next }, s)
  | .ok rows => ({ c with phase := .sending rows }, s)
  | .error _ => ({ c with phase := next }, s.record .lookupError)

/-- Writes the transaction; a failure is only counted. -/
def write (c : Correlation) (status : Status) (s : Services) : Services :=
  match s.store.upsert [.ofMarker c.marker status] with
  | .ok stored => { s with store := stored }
  | .error _ => s.record .statusWriteError

/-- One step of the correlation, if it can take one. `sender` sends its record. -/
def step (sender : Sender) (now : Nat) (c : Correlation) (d : Channel AuditRecord) (s : Services) :
    Option (Correlation × Channel AuditRecord × Services) :=
  match c.phase with
  | .starting => let (c, s) := c.begin s; some (c, d, s)
  | .looking attempt => let (c, s) := c.look attempt now s; some (c, d, s)
  | .waiting attempt due => if due ≤ now then some ({ c with phase := .looking attempt }, d, s) else none
  | .sending rows =>
    match d.attempt sender (recordOf c.marker rows) with
    | .closed => some ({ c with phase := .settling rows.length }, d, s.record (.delivery false))
    | .joined d => some (c, d, s)
    | .sent d => some ({ c with phase := .settling rows.length }, d, s)
    | .blocked => none
  | .settling rows => let (c, s) := c.finish (.resolved rows) (c.write .processed s); some (c, d, s)
  | .deferring => let (c, s) := c.finish .deferred (c.write .unprocessed s); some (c, d, s)
  | .finished _ => none

/-- When the correlation goes on by itself. -/
def due? (c : Correlation) : Option Nat :=
  match c.phase with
  | .waiting _ due => some due
  | _ => none

end Correlation

end AuditTrail
