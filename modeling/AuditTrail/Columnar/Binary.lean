import AuditTrail.Text.Utf8

/-!
# Binary rows

Rows travel as the octets of their values, one after the other. A number has a fixed count of octets, the least first, and a
negative one is written modulo a power of two. A text is preceded by the number of its octets, in groups of seven bits with the
least first; every group but the last has its high bit set, and there are nine at most.
-/

namespace AuditTrail.Columnar

/-- Takes a value from the front of some octets. -/
abbrev Take (α : Type) := Octets → Option (α × Octets)

/-- A number in groups of seven bits. -/
def groups (n : Nat) : Octets :=
  if n < 128 then [n.toUInt8] else (n % 128 + 128).toUInt8 :: groups (n / 128)
termination_by n
decreasing_by omega

/-- Takes a number of at most `most` groups. -/
def takeGroups : (most : Nat) → Take Nat
  | 0, _ => none
  | _ + 1, [] => none
  | most + 1, b :: rest =>
    if b.toNat < 128 then some (b.toNat, rest)
    else do
      let (n, rest) ← takeGroups most rest
      some (b.toNat - 128 + 128 * n, rest)

/-- A whole number as a count of octets. -/
def fixed : (count : Nat) → Int → Octets
  | 0, _ => []
  | count + 1, n => (n % 256).toNat.toUInt8 :: fixed count (n / 256)

/-- Takes a natural number of a count of octets. -/
def takeUnsigned : (count : Nat) → Take Nat
  | 0, s => some (0, s)
  | _ + 1, [] => none
  | count + 1, b :: rest => do
    let (n, rest) ← takeUnsigned count rest
    some (b.toNat + 256 * n, rest)

/-- Takes a whole number of a count of octets. -/
def takeSigned (count : Nat) : Take Int := fun s => do
  let (n, s) ← takeUnsigned count s
  some (if n < Nat.pow 2 (8 * count - 1) then (n : Int) else (n : Int) - (Nat.pow 2 (8 * count) : Nat), s)

/-- A text after its length. -/
def string (t : String) : Octets :=
  let octets := Utf8.encode t
  groups octets.length ++ octets

/-- Takes a text. -/
def takeString : Take String := fun s => do
  let (n, s) ← takeGroups 9 s
  if s.length < n then none
  else do
    let t ← Utf8.decode? (s.take n)
    some (t, s.drop n)

/-- Takes values until nothing is left; `fuel` is at least the number of octets. -/
def takeAll (take : Take α) : (fuel : Nat) → Octets → Option (List α)
  | _, [] => some []
  | 0, _ :: _ => none
  | fuel + 1, b :: rest => do
    let (a, s) ← take (b :: rest)
    let as ← takeAll take fuel s
    some (a :: as)

end AuditTrail.Columnar
