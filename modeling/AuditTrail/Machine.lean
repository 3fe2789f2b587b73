/-!
# The machine

The program runs on words of 64 bits. A channel has no more room than such a word can count, and a monotonic clock, whose seconds are a
word with a sign, shows no time beyond its last second. What asks for more panics.
-/

namespace AuditTrail.Machine

/-- The most items that a channel can have room for: an eighth of what a word can count. -/
def greatestCapacity : Nat := (UInt64.size - 1) / 8

/-- The last millisecond that a monotonic clock can show. -/
def lastMillisecond : Nat := UInt64.size / 2 * 1000 - 1

end AuditTrail.Machine
