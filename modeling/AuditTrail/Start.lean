import AuditTrail.Json.Codec

/-!
# Where reading starts

A partition without a cursor is read from its beginning, or from what is published next.
-/

namespace AuditTrail

/-- Where a partition without a cursor is read from. -/
inductive StartOffset where
  | earliest
  | latest
  deriving DecidableEq, Repr

namespace StartOffset

/-- The name of a start. -/
def name : StartOffset → String
  | .earliest => "earliest"
  | .latest => "latest"

/-- The name of a start as a title. -/
def title : StartOffset → String
  | .earliest => "Earliest"
  | .latest => "Latest"

/-- The starts under their names. -/
def variants : Json.Variants StartOffset := ⟨[("earliest", .earliest), ("latest", .latest)], name⟩

end StartOffset

end AuditTrail
