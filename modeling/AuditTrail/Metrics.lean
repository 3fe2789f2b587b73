import AuditTrail.Json.Value

/-!
# Metrics

Every event that is worth counting is an `Update`. It moves counters kept here and the series that are exported under a name and
at most one label; a series exists once it has been touched. Counts are kept exactly and shown in 64 bits.
-/

namespace AuditTrail

/-- How a marker left the correlator. -/
inductive Outcome where
  | resolved
  | deferred
  | alreadyProcessed
  | skipped
  deriving DecidableEq, Repr

/-- The name of an outcome. -/
def Outcome.name : Outcome → String
  | .resolved => "resolved"
  | .deferred => "deferred"
  | .alreadyProcessed => "already_processed"
  | .skipped => "skipped"

/-- The two streams that are read. -/
inductive Stream where
  | rowChange
  | marker
  deriving DecidableEq, Repr

/-- The name of a stream. -/
def Stream.name : Stream → String
  | .rowChange => "row_change"
  | .marker => "marker"

/-- What is counted. -/
inductive Update where
  | rowChange
  | filtered
  | decodeError (stream : Stream)
  | cursorError
  /-- A failed fetch, by the code of its error. -/
  | fetchError (code : String)
  | flush (rows : Nat)
  | flushFailure (rows : Nat)
  | marker (outcome : Outcome)
  | lookupAttempt
  | lookupError
  | statusWriteError
  | sweep (resolved : Nat)
  | sweepError
  | delivery (ok : Bool)
  /-- How many unprocessed transactions are too old to be looked at again. -/
  | abandoned (count : Nat)
  deriving DecidableEq, Repr

/-- The counters. -/
structure Counts where
  rowChangesReceived : Nat := 0
  rowChangesFiltered : Nat := 0
  decodeErrors : Nat := 0
  cursorErrors : Nat := 0
  fetchErrors : Nat := 0
  flushes : Nat := 0
  flushFailures : Nat := 0
  rowsFlushed : Nat := 0
  rowsDropped : Nat := 0
  markersResolved : Nat := 0
  markersDeferred : Nat := 0
  markersAlreadyProcessed : Nat := 0
  markersSkipped : Nat := 0
  lookupAttempts : Nat := 0
  lookupErrors : Nat := 0
  statusWriteErrors : Nat := 0
  sweepCycles : Nat := 0
  sweepResolved : Nat := 0
  sweepErrors : Nat := 0
  abandoned : Nat := 0
  recordsDelivered : Nat := 0
  deliveryFailures : Nat := 0
  deriving DecidableEq, Repr, Inhabited

namespace Counts

/-- The counters after an update. -/
def record (c : Counts) : Update → Counts
  | .rowChange => { c with rowChangesReceived := c.rowChangesReceived + 1 }
  | .filtered => { c with rowChangesFiltered := c.rowChangesFiltered + 1 }
  | .decodeError _ => { c with decodeErrors := c.decodeErrors + 1 }
  | .cursorError => { c with cursorErrors := c.cursorErrors + 1 }
  | .fetchError _ => { c with fetchErrors := c.fetchErrors + 1 }
  | .flush rows => { c with flushes := c.flushes + 1, rowsFlushed := c.rowsFlushed + rows }
  | .flushFailure rows => { c with flushFailures := c.flushFailures + 1, rowsDropped := c.rowsDropped + rows }
  | .marker .resolved => { c with markersResolved := c.markersResolved + 1 }
  | .marker .deferred => { c with markersDeferred := c.markersDeferred + 1 }
  | .marker .alreadyProcessed => { c with markersAlreadyProcessed := c.markersAlreadyProcessed + 1 }
  | .marker .skipped => { c with markersSkipped := c.markersSkipped + 1 }
  | .lookupAttempt => { c with lookupAttempts := c.lookupAttempts + 1 }
  | .lookupError => { c with lookupErrors := c.lookupErrors + 1 }
  | .statusWriteError => { c with statusWriteErrors := c.statusWriteErrors + 1 }
  | .sweep resolved => { c with sweepCycles := c.sweepCycles + 1, sweepResolved := c.sweepResolved + resolved }
  | .sweepError => { c with sweepErrors := c.sweepErrors + 1 }
  | .delivery true => { c with recordsDelivered := c.recordsDelivered + 1 }
  | .delivery false => { c with deliveryFailures := c.deliveryFailures + 1 }
  | .abandoned n => { c with abandoned := n }

/-- The counters under their names, in order. -/
def fields (c : Counts) : List (String × Nat) := [
  ("row_changes_received", c.rowChangesReceived), ("row_changes_filtered", c.rowChangesFiltered),
  ("decode_errors", c.decodeErrors), ("cursor_errors", c.cursorErrors), ("fetch_errors", c.fetchErrors),
  ("flushes", c.flushes), ("flush_failures", c.flushFailures), ("rows_flushed", c.rowsFlushed),
  ("rows_dropped", c.rowsDropped), ("markers_resolved", c.markersResolved), ("markers_deferred", c.markersDeferred),
  ("markers_already_processed", c.markersAlreadyProcessed), ("markers_skipped", c.markersSkipped),
  ("lookup_attempts", c.lookupAttempts), ("lookup_errors", c.lookupErrors),
  ("status_write_errors", c.statusWriteErrors), ("sweep_cycles", c.sweepCycles), ("sweep_resolved", c.sweepResolved),
  ("sweep_errors", c.sweepErrors), ("abandoned", c.abandoned), ("records_delivered", c.recordsDelivered),
  ("delivery_failures", c.deliveryFailures)]

end Counts

/-- The name of an exported series and its label, if it has one. -/
structure Series where
  name : String
  label : Option (String × String)
  deriving DecidableEq, Repr

namespace Series

/-- A series of the pipeline without a label. -/
def plain (name : String) : Series := ⟨"rivven_audit_" ++ name, none⟩

/-- A series of the pipeline with a label. -/
def labelled (name key value : String) : Series := ⟨"rivven_audit_" ++ name, some (key, value)⟩

/-- The name with the label in braces. -/
def render (s : Series) : String :=
  s.name ++ "\x7b" ++ (match s.label with
    | some (k, v) => k ++ "=" ++ v
    | none => "") ++ "\x7d"

end Series

/-- What has been exported for a series. -/
inductive Reading where
  /-- The sum of all increments. -/
  | counter (total : Nat)
  /-- The last value set. -/
  | gauge (value : Nat)
  /-- The number of observations. -/
  | histogram (count : Nat)
  deriving DecidableEq, Repr

/-- The number in a reading. A gauge holds a binary64 number. -/
def Reading.value : Reading → Nat
  | .counter n => n % UInt64.size
  | .histogram n => n % UInt64.size
  | .gauge n =>
    match Binary64.ofRatio false (n % UInt64.size) 1 with
    | some x => x.ratio.1 / x.ratio.2
    | none => 0

/-- One step of an exported series. -/
inductive Export where
  | add (n : Nat)
  | set (n : Nat)
  | observe
  deriving DecidableEq, Repr

/-- A series after a step, which may be its first. -/
def Export.apply : Export → Option Reading → Reading
  | .add n, some (.counter m) => .counter (m + n)
  | .add n, _ => .counter n
  | .set n, _ => .gauge n
  | .observe, some (.histogram m) => .histogram (m + 1)
  | .observe, _ => .histogram 1

/-- What an update exports. Lookup attempts are counted here only. -/
def Update.exports : Update → List (Series × Export)
  | .rowChange => [(.plain "row_changes_received_total", .add 1)]
  | .filtered => [(.plain "row_changes_filtered_total", .add 1)]
  | .decodeError stream => [(.labelled "decode_errors_total" "stream" stream.name, .add 1)]
  | .cursorError => [(.plain "cursor_errors_total", .add 1)]
  | .fetchError code => [(.labelled "fetch_errors_total" "code" code, .add 1)]
  | .flush rows => [
    (.labelled "flushes_total" "result" "ok", .add 1), (.plain "rows_flushed_total", .add rows),
    (.plain "flush_duration_seconds", .observe)]
  | .flushFailure rows => [
    (.labelled "flushes_total" "result" "error", .add 1), (.plain "rows_dropped_total", .add rows)]
  | .marker outcome => [(.labelled "markers_total" "outcome" outcome.name, .add 1)]
  | .lookupAttempt => []
  | .lookupError => [(.plain "lookup_errors_total", .add 1)]
  | .statusWriteError => [(.plain "status_write_errors_total", .add 1)]
  | .sweep resolved => [(.plain "sweep_cycles_total", .add 1), (.plain "sweep_resolved_total", .add resolved)]
  | .sweepError => [(.plain "sweep_errors_total", .add 1)]
  | .delivery ok => [(.labelled "records_delivered_total" "result" (if ok then "ok" else "error"), .add 1)]
  | .abandoned n => [(.plain "transactions_abandoned", .set n)]

/-- The counters and the exported series. -/
structure Metrics where
  counts : Counts
  series : List (Series × Reading)
  deriving DecidableEq, Repr

namespace Metrics

/-- Nothing counted yet. -/
def empty : Metrics := ⟨{}, []⟩

/-- The series after one step of one of them. -/
def step (series : List (Series × Reading)) (s : Series) (x : Export) : List (Series × Reading) :=
  match series with
  | [] => [(s, x.apply none)]
  | (t, r) :: rest => if t = s then (t, x.apply (some r)) :: rest else (t, r) :: step rest s x

/-- The metrics after an update. -/
def record (m : Metrics) (u : Update) : Metrics :=
  ⟨m.counts.record u, u.exports.foldl (fun acc e => step acc e.1 e.2) m.series⟩

/-- The counters under their names as they are shown. -/
def snapshot (m : Metrics) : List (String × Nat) := m.counts.fields.map fun f => (f.1, f.2 % UInt64.size)

/-- The exported series as they are shown. -/
def exported (m : Metrics) : List (String × Nat) := m.series.map fun s => (s.1.render, s.2.value)

end Metrics

end AuditTrail
