/-!
# Secrets

A secret is a text that is shown by none of the ways in which values are written.
-/

namespace AuditTrail

/-- A text to be kept from view. -/
structure Secret where
  value : String
  deriving DecidableEq

namespace Secret

/-- How any secret is written as data. -/
def mask : String := "***REDACTED***"

/-- How any secret is shown to a reader. -/
def shown : String := "[REDACTED]"

instance : Repr Secret := ⟨fun _ _ => shown⟩

/-- Whether there is nothing to keep. -/
def isEmpty (s : Secret) : Bool := s.value.isEmpty

end Secret

end AuditTrail
