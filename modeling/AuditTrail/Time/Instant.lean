/-!
# Instants

A point of time in UTC: whole seconds since 1970-01-01T00:00:00Z and nanoseconds within the second. Within a leap second the
seconds stay at the last regular one and the nanoseconds run on past 10^9.
-/

namespace AuditTrail

/-- Seconds since the epoch and nanoseconds on top of them. -/
structure Instant where
  seconds : Int
  nanos : Nat
  deriving DecidableEq, Repr, Inhabited

namespace Instant

/-- Earlier or equal: by seconds, then by nanoseconds. -/
def ble (a b : Instant) : Bool := a.seconds < b.seconds || (a.seconds == b.seconds && a.nanos ≤ b.nanos)

/-- Strictly earlier. -/
def blt (a b : Instant) : Bool := !b.ble a

instance : LE Instant := ⟨fun a b => a.ble b = true⟩

instance : LT Instant := ⟨fun a b => a.blt b = true⟩

instance (a b : Instant) : Decidable (a ≤ b) := inferInstanceAs (Decidable (a.ble b = true))

instance (a b : Instant) : Decidable (a < b) := inferInstanceAs (Decidable (a.blt b = true))

/-- The first second that can be represented, at the start of the year -262143. -/
def leastSecond : Int := -8334601228800

/-- The last second that can be represented, at the end of the year 262142. -/
def greatestSecond : Int := 8210266876799

/-- The instant at a whole second, if the calendar reaches that far. -/
def ofSeconds? (s : Int) : Option Instant :=
  if leastSecond ≤ s ∧ s ≤ greatestSecond then some ⟨s, 0⟩ else none

/-- The instant so many milliseconds after the epoch, if the calendar reaches that far. -/
def ofMillis? (ms : Int) : Option Instant :=
  if leastSecond ≤ ms / 1000 ∧ ms / 1000 ≤ greatestSecond then some ⟨ms / 1000, (ms % 1000).toNat * 1000000⟩ else none

/-- The instant so many milliseconds after the epoch. -/
def ofMillis (ms : Int) : Instant := ⟨ms / 1000, (ms % 1000).toNat * 1000000⟩

/-- Milliseconds since the epoch, rounded down. -/
def millis (t : Instant) : Int := t.seconds * 1000 + (t.nanos / 1000000 : Nat)

/-- The instant shifted by whole seconds. -/
def addSeconds (t : Instant) (s : Int) : Instant := ⟨t.seconds + s, t.nanos⟩

/-- The instant with its milliseconds kept and all finer parts dropped. -/
def truncateMillis (t : Instant) : Instant := ofMillis t.millis

end Instant

end AuditTrail
