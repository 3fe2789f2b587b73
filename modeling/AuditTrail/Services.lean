import AuditTrail.Cursors
import AuditTrail.Metrics
import AuditTrail.Queue
import AuditTrail.Store

/-!
# Services

What all tasks share: store, cursors, queue and metrics, the clock, and the handler with the records it has been given.
-/

namespace AuditTrail

/-- What consumes the finished records. -/
structure Handler where
  /-- Whether the handler shows the records that it has been given. -/
  keeps : Bool := true
  /-- The GTIDs whose records the handler fails for. -/
  rejects : List String := []
  /-- The records that it has been given so far, the first in front. -/
  seen : List AuditRecord := []
  deriving DecidableEq, Repr

namespace Handler

/-- The handler after a record, and whether it succeeded. -/
def handle (h : Handler) (r : AuditRecord) : Handler × Bool :=
  ({ h with seen := h.seen ++ [r] }, !h.rejects.contains r.gtid)

/-- The records that the handler shows. -/
def shown (h : Handler) : List AuditRecord := if h.keeps then h.seen else []

end Handler

/-- What all tasks share. -/
structure Services where
  store : Store := {}
  cursors : Cursors := {}
  queue : Queue := {}
  metrics : Metrics := .empty
  handler : Handler := {}
  /-- The time of day. -/
  clock : Instant := ⟨0, 0⟩
  deriving DecidableEq, Repr

namespace Services

/-- Counts an update. -/
def record (s : Services) (u : Update) : Services := { s with metrics := s.metrics.record u }

/-- Hands a record to the handler and counts how it went. -/
def handle (s : Services) (r : AuditRecord) : Services :=
  let (h, ok) := s.handler.handle r
  { s with handler := h }.record (.delivery ok)

/-- Writes a cursor; a failure is counted and changes nothing else. -/
def putCursor (s : Services) (topic : String) (partition offset : Int) : Services :=
  match s.cursors.put topic partition offset with
  | .ok c => { s with cursors := c }
  | .error _ => s.record .cursorError

end Services

end AuditTrail
