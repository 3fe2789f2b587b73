import AuditTrail.Flow.Channel
import AuditTrail.Services
import AuditTrail.Settings

/-!
# One sweep

A sweep retries the transactions that were deferred. It counts those that are too old to be looked at, loads the newest of the
others, reads the rows of all of them at once, sends a record for every one that has rows, and then writes all of these as
processed in one go. A sweep that fails after it has sent records leaves their transactions unprocessed.
-/

namespace AuditTrail

/-- What a sweep reports. -/
structure SweepReport where
  candidates : Nat
  resolved : Nat
  /-- How many unprocessed transactions are too old, if they could be counted. -/
  abandoned : Option Nat
  deriving DecidableEq, Repr

/-- What a sweep is doing. -/
inductive Sweep.Phase where
  | starting
  /-- It is about to load the transactions committed since an instant. -/
  | listing (since : Instant) (abandoned : Option Nat)
  /-- It is about to read the rows of its candidates. -/
  | fetching (candidates : List Transaction) (abandoned : Option Nat)
  /-- It sends records; of the candidates `rest` are left, and `done` have been sent. -/
  | sending (report : SweepReport) (rows : List (String × List StoredChange)) (rest done : List Transaction)
  | finished (result : Except Error SweepReport)

/-- A sweep. -/
structure Sweep where
  settings : SweeperSettings
  phase : Sweep.Phase := .starting

namespace Sweep

/-- The longest time to look back, in seconds: what fits 64 bits in milliseconds. -/
def greatestLookback : Nat := 9223372036854775

/-- Counts the transactions that are too old. -/
def countAbandoned (since : Instant) (s : Services) : Option Nat × Services :=
  match s.store.countBefore since with
  | .ok n => (some n, s.record (.abandoned n))
  | .error _ => (none, s)

/-- The sweep ended by an error. -/
def fail (x : Sweep) (e : Error) : Sweep := { x with phase := .finished (.error e) }

/-- The sweep with its report, whose resolved transactions are counted. -/
def finish (x : Sweep) (r : SweepReport) (s : Services) : Sweep × Services :=
  ({ x with phase := .finished (.ok r) }, s.record (.sweep r.resolved))

/-- Fixes the instant since when transactions are looked at. -/
def begin (x : Sweep) (s : Services) : Sweep × Services :=
  if greatestLookback < x.settings.lookback then (x.fail (.config .lookback), s)
  else
    let since := s.clock.addSeconds (-(x.settings.lookback : Int))
    let (abandoned, s) := countAbandoned since s
    ({ x with phase := .listing since abandoned }, s)

/-- Loads the candidates. -/
def list (x : Sweep) (since : Instant) (abandoned : Option Nat) (s : Services) : Sweep × Services :=
  match s.store.unprocessed since x.settings.batchLimit with
  | .error e => (x.fail e, s)
  | .ok [] => x.finish ⟨0, 0, abandoned⟩ s
  | .ok candidates => ({ x with phase := .fetching candidates abandoned }, s)

/-- Reads the rows of all candidates. -/
def fetch (x : Sweep) (candidates : List Transaction) (abandoned : Option Nat) (s : Services) : Sweep :=
  match s.store.rowsOfAll (candidates.map (·.gtid)) with
  | .error e => x.fail e
  | .ok rows => { x with phase := .sending ⟨candidates.length, 0, abandoned⟩ rows candidates [] }

/-- Writes the transactions whose records have been sent as processed, if there are any. -/
def settle (x : Sweep) (r : SweepReport) (done : List Transaction) (s : Services) : Sweep × Services :=
  if done.isEmpty then x.finish r s
  else match s.store.upsert (done.map (·.toProcessed)) with
    | .error e => (x.fail e, s)
    | .ok stored => x.finish { r with resolved := done.length } { s with store := stored }

/-- One step of the sweep, if it can take one. `sender` sends its records. -/
def step (sender : Sender) (x : Sweep) (d : Channel AuditRecord) (s : Services) :
    Option (Sweep × Channel AuditRecord × Services) :=
  match x.phase with
  | .starting => let (x, s) := x.begin s; some (x, d, s)
  | .listing since abandoned => let (x, s) := x.list since abandoned s; some (x, d, s)
  | .fetching candidates abandoned => some (x.fetch candidates abandoned s, d, s)
  | .sending r _ [] done => let (x, s) := x.settle r done s; some (x, d, s)
  | .sending r rows (t :: rest) done =>
    match rows.lookup t.gtid with
    | none => some ({ x with phase := .sending r rows rest done }, d, s)
    | some changes =>
      match d.attempt sender (.ofTransaction t changes) with
      | .closed => some (x.fail (.channelClosed "audit delivery"), d, s)
      | .joined d => some (x, d, s)
      | .sent d => some ({ x with phase := .sending r rows rest (done ++ [t]) }, d, s)
      | .blocked => none
  | .finished _ => none

end Sweep

end AuditTrail
