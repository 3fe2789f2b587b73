/-!
# Tickers

A ticker is due once in every period. A tick that comes late by more than five milliseconds starts a new period; otherwise the
next one keeps the old pace.
-/

namespace AuditTrail

/-- A period of at least a millisecond and the time of the next tick. -/
structure Ticker where
  period : Nat
  due : Nat
  deriving DecidableEq, Repr

namespace Ticker

/-- How late a tick may come and still keep the pace, in milliseconds. -/
def tolerance : Nat := 5

/-- A ticker that is first due one period from now. -/
def start (period now : Nat) : Ticker := ⟨max period 1, now + max period 1⟩

/-- Whether a tick is due. -/
def isDue (t : Ticker) (now : Nat) : Bool := t.due ≤ now

/-- The ticker after a tick. -/
def tick (t : Ticker) (now : Nat) : Ticker :=
  { t with due := (if t.due + tolerance < now then now else t.due) + t.period }

/-- The ticker with a new period from now. -/
def reset (t : Ticker) (now : Nat) : Ticker := { t with due := now + t.period }

end Ticker

end AuditTrail
