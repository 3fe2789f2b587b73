import AuditTrail.Decimal.Binary64

/-!
# Shortest decimals

The shortest decimal that reads back as a given binary64 number, and of several such the nearest one. `digits` finds it on
the grids of one, two, ... seventeen digits; `Binary64.render` lays it out: positional from `1e-5` up to but not including
`1e16`, always with a point, and with a signed exponent outside.
-/

namespace AuditTrail

/-- A decimal `digits * 10 ^ exponent`. -/
structure Decimal where
  digits : Nat
  exponent : Int
  deriving DecidableEq, Repr

namespace Decimal

/-- How many decimal digits `n` is written with. -/
def width (n : Nat) : Nat := (Nat.toDigits 10 n).length

/-- Drops trailing zeros of the digits, raising the exponent instead. -/
def normalize : Nat → Decimal → Decimal
  | 0, d => d
  | fuel + 1, d => if d.digits % 10 = 0 ∧ d.digits ≠ 0 then normalize fuel ⟨d.digits / 10, d.exponent + 1⟩ else d

/-- Powers of ten and two as a ratio: `10 ^ k / 2 ^ e`. -/
def scale (k e : Int) : Nat × Nat :=
  (Nat.pow 10 k.toNat * Nat.pow 2 (-e).toNat, Nat.pow 10 (-k).toNat * Nat.pow 2 e.toNat)

end Decimal

namespace Binary64

/-- The interval of values that round to a number `m * 2 ^ e`, in units of `2 ^ (e - 2)`. -/
structure Rounding where
  low : Nat
  value : Nat
  high : Nat
  /-- Whether the two ends round to the number too. -/
  closed : Bool

/-- The rounding interval of a positive number. Below a power of two the next number is only half as far away. -/
def rounding (x : Binary64) : Rounding :=
  let m := x.parts.1
  let narrow := x.magnitude % unit == 0 && x.magnitude / unit > 1
  { low := if narrow then 4 * m - 1 else 4 * m - 2, value := 4 * m, high := 4 * m + 2, closed := m % 2 == 0 }

/-- Whether `c * a / b` units lie in the interval. -/
def Rounding.holds (r : Rounding) (a b c : Nat) : Bool :=
  if r.closed then r.low * b ≤ c * a && c * a ≤ r.high * b else r.low * b < c * a && c * a < r.high * b

/-- The better of the two neighbours on the grid of multiples of `a / b` units, if one of them lies in the interval. -/
def Rounding.nearest? (r : Rounding) (a b : Nat) : Option Nat :=
  let lo := r.value * b / a
  let hi := lo + 1
  match r.holds a b lo, r.holds a b hi with
  | true, true =>
    let below := r.value * b - lo * a
    let above := hi * a - r.value * b
    some (if below < above then lo else if above < below then hi else if lo % 2 = 0 then lo else hi)
  | true, false => some lo
  | false, true => some hi
  | false, false => none

/-- The decimal exponent `k` of the leading digit: `10 ^ k ≤ value < 10 ^ (k + 1)`, found from an estimate that is off by
at most one. -/
def leadingExponent (x : Binary64) : Int :=
  let (num, den) := x.ratio
  let guess : Int := (Decimal.width num : Int) - Decimal.width den
  if Nat.pow 10 guess.toNat * den ≤ num * Nat.pow 10 (-guess).toNat then guess else guess - 1

/-- Tries the grids of `n`, `n + 1`, ... digits, `fuel` of them. -/
def shortestFrom (x : Binary64) (lead : Int) : Nat → Nat → Option Decimal
  | 0, _ => none
  | fuel + 1, n =>
    let k := lead - (n : Int) + 1
    let (a, b) := Decimal.scale k (x.parts.2 - 2)
    match x.rounding.nearest? a b with
    | some c => some (Decimal.normalize 20 ⟨c, k⟩)
    | none => shortestFrom x lead fuel (n + 1)

/-- The shortest decimal that rounds to the magnitude of the number, the nearest one among the shortest. -/
def shortest (x : Binary64) : Decimal :=
  if x.isZero then ⟨0, 0⟩ else (shortestFrom x x.leadingExponent 17 1).getD ⟨0, 0⟩

/-- How a decimal is laid out. -/
structure Layout where
  /-- The least place of the decimal point, counted from the first digit, that is written positionally. -/
  leastPoint : Int
  /-- The greatest such place. -/
  greatestPoint : Int

/-- Positional from `1e-5` up to `1e16`. -/
def layout : Layout := ⟨-4, 16⟩

/-- Digits with the point after the first `point` of them. -/
def renderDigits (l : Layout) (d : Decimal) : String :=
  let ds := Nat.toDigits 10 d.digits
  let n := ds.length
  let point : Int := n + d.exponent
  let zeros (k : Int) := List.replicate k.toNat '0'
  if l.leastPoint ≤ point ∧ point ≤ l.greatestPoint then
    if 0 ≤ d.exponent then String.ofList (ds ++ zeros d.exponent ++ ['.', '0'])
    else if 0 < point then String.ofList (ds.take point.toNat ++ ['.'] ++ ds.drop point.toNat)
    else String.ofList (['0', '.'] ++ zeros (-point) ++ ds)
  else
    let e := point - 1
    let mantissa := match ds with
      | first :: second :: rest => first :: '.' :: second :: rest
      | _ => ds
    String.ofList (mantissa ++ ['e', if e < 0 then '-' else '+'] ++ Nat.toDigits 10 e.natAbs)

/-- The text of a number: its shortest decimal, always with a point or an exponent. -/
def render (x : Binary64) : String :=
  (if x.negative then "-" else "") ++ (if x.isZero then "0.0" else renderDigits layout x.shortest)

end Binary64

end AuditTrail
