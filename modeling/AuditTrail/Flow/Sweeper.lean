import AuditTrail.Flow.Sweep
import AuditTrail.Flow.Ticker

/-!
# The sweeper

The sweeper runs a sweep at every tick of its interval, the first one interval after it starts. It stops when it is told to
between two sweeps.
-/

namespace AuditTrail

/-- The sweeper. -/
structure Sweeper where
  settings : SweeperSettings
  ticker : Ticker
  /-- The sweep that is under way. -/
  sweep : Option Sweep := none
  stopped : Bool := false
  /-- Whether it has been told to stop. -/
  signalled : Bool := false

namespace Sweeper

/-- A sweeper that starts now. -/
def start (settings : SweeperSettings) (now : Nat) : Sweeper := { settings, ticker := .start settings.interval now }

/-- The sweeper once it has started, unless it panics because its first tick is at no time that a clock can show. -/
def launch? (settings : SweeperSettings) (now : Nat) : Option Sweeper :=
  (some (start settings now)).filter (·.ticker.due ≤ Machine.lastMillisecond)

/-- One step of the sweeper, if it can take one. When it has been told to stop and could also sweep, `heed` says whether it
stops. -/
def step (heed : Bool) (now : Nat) (x : Sweeper) (d : Channel AuditRecord) (s : Services) :
    Option (Sweeper × Channel AuditRecord × Services) :=
  if x.stopped then none
  else match x.sweep with
    | none =>
      if x.signalled && heed then some ({ x with stopped := true }, d, s)
      else if x.ticker.isDue now then
        some ({ x with ticker := x.ticker.tick now, sweep := some { settings := x.settings } }, d, s)
      else none
    | some w =>
      match w.phase with
      | .finished (.ok _) => some ({ x with sweep := none }, d, s)
      | .finished (.error _) => some ({ x with sweep := none }, d, s.record .sweepError)
      | _ => (w.step .sweeper d s).map fun (w, d, s) => ({ x with sweep := some w }, d, s)

/-- When the sweeper goes on by itself. -/
def due? (x : Sweeper) : Option Nat := if x.stopped || x.sweep.isSome then none else some x.ticker.due

end Sweeper

end AuditTrail
