import AuditTrail.Flow.Correlation
import AuditTrail.Flow.Reader

/-!
# The correlator

The correlator takes envelopes from all partitions one after the other. It correlates the marker, if there is one, and then
writes the cursor of the marker topic past the envelope. It stops when it is told to while it waits for an envelope, and when no
sender is left.
-/

namespace AuditTrail

/-- What the correlator is doing. -/
inductive Correlator.Phase where
  | idle
  | correlating (e : Envelope) (c : Correlation)
  /-- It is about to write the cursor past an envelope. -/
  | committing (e : Envelope)
  | stopped
  deriving DecidableEq, Repr

/-- The correlator. -/
structure Correlator where
  settings : CorrelatorSettings
  topic : String
  phase : Correlator.Phase := .idle
  /-- Whether it has been told to stop. -/
  signalled : Bool := false
  deriving DecidableEq, Repr

namespace Correlator

/-- Whether the correlator has stopped. -/
def isStopped (c : Correlator) : Bool := c.phase == .stopped

/-- One step of the correlator, if it can take one. `senders` says whether anybody can still send an envelope; `heed` whether it
stops when it has been told to and could also go on. -/
def step (heed : Bool) (now : Nat) (senders : Bool) (c : Correlator) (m : Channel Envelope) (d : Channel AuditRecord)
    (s : Services) : Option (Correlator × Channel Envelope × Channel AuditRecord × Services) :=
  match c.phase with
  | .idle =>
    if c.signalled && heed then some ({ c with phase := .stopped }, m.close, d, s)
    else match m.take? with
      | some (e, m) =>
        let phase := match e.marker with
          | some marker => .correlating e ⟨c.settings, marker, .starting⟩
          | none => .committing e
        some ({ c with phase := phase }, m, d, s)
      | none => if senders then none else some ({ c with phase := .stopped }, m.close, d, s)
  | .correlating e x =>
    match x.phase with
    | .finished _ => some ({ c with phase := .committing e }, m, d, s)
    | _ => (x.step .correlator now d s).map fun (x, d, s) => ({ c with phase := .correlating e x }, m, d, s)
  | .committing e => some ({ c with phase := .idle }, m, d, s.putCursor c.topic e.partition (e.offset + 1))
  | .stopped => none

/-- When the correlator goes on by itself. -/
def due? (c : Correlator) : Option Nat :=
  match c.phase with
  | .correlating _ x => x.due?
  | _ => none

end Correlator

end AuditTrail
