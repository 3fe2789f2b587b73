/-!
# Binary64 numbers

A finite binary64 number is a sign and a magnitude word: the eleven exponent bits above the fifty-two fraction bits. All
arithmetic is exact on natural numbers and rounds once, to the nearest number and to the even one on a tie.
-/

namespace AuditTrail

/-- A finite binary64 number, given by its sign and the other 63 bits. -/
structure Binary64 where
  negative : Bool
  magnitude : Nat
  deriving DecidableEq, Repr, Inhabited

namespace Binary64

/-- The least significand of 53 bits. -/
def unit : Nat := 0x10000000000000

/-- The magnitude word of infinity; a finite magnitude is below it. -/
def infinity : Nat := 0x7ff * unit

/-- Significand `m` and exponent `e` with value `m * 2 ^ e`. -/
def parts (x : Binary64) : Nat × Int :=
  if x.magnitude / unit = 0 then (x.magnitude % unit, -1074)
  else (unit + x.magnitude % unit, (x.magnitude / unit : Nat) - 1075)

/-- The number zero with the given sign. -/
def zero (negative : Bool) : Binary64 := ⟨negative, 0⟩

/-- Whether the number is a zero of either sign. -/
def isZero (x : Binary64) : Bool := x.magnitude == 0

/-- Equality of values: the two zeros are equal. -/
def sameValue (x y : Binary64) : Bool := x == y || (x.isZero && y.isZero)

/-- `num / den` rounded to a whole number, a half going to the even neighbour. -/
def roundHalfEven (num den : Nat) : Nat :=
  let q := num / den
  let r := num % den
  if 2 * r < den then q else if den < 2 * r then q + 1 else q + q % 2

/-- `num / den` times `2 ^ (-e)`, rounded to a whole number. -/
def roundScaled (num den : Nat) (e : Int) : Nat :=
  if e < 0 then roundHalfEven (num * Nat.pow 2 e.natAbs) den else roundHalfEven num (den * Nat.pow 2 e.natAbs)

/-- The exponent that makes `num / den` a significand of 53 bits, never below that of the smallest numbers. -/
def exponentFor (num den : Nat) : Int :=
  let guess : Int := (Nat.log2 num : Int) - Nat.log2 den - 52
  -- the quotient has one bit less than the guess allows for when the leading digits of `den` are the larger ones
  let fits := if guess < 0 then den * unit ≤ num * Nat.pow 2 guess.natAbs else den * unit * Nat.pow 2 guess.natAbs ≤ num
  max (-1074) (if fits then guess else guess - 1)

/-- The binary64 number nearest to `num / den`, `none` when it is too large to be finite. -/
def ofRatio (negative : Bool) (num den : Nat) : Option Binary64 :=
  if num = 0 then some (zero negative)
  else
    let e := exponentFor num den
    let m := (e + 1074).toNat * unit + roundScaled num den e
    if m < infinity then some ⟨negative, m⟩ else none

/-- The value of a number as a ratio, its sign dropped. -/
def ratio (x : Binary64) : Nat × Nat :=
  let (m, e) := x.parts
  if e < 0 then (m, Nat.pow 2 e.natAbs) else (m * Nat.pow 2 e.natAbs, 1)

/-- Product, `none` on overflow. -/
def mul (x y : Binary64) : Option Binary64 :=
  let (a, b) := x.ratio
  let (c, d) := y.ratio
  ofRatio (x.negative != y.negative) (a * c) (b * d)

/-- Quotient by a number that is not zero, `none` on overflow. -/
def div (x y : Binary64) : Option Binary64 :=
  let (a, b) := x.ratio
  let (c, d) := y.ratio
  ofRatio (x.negative != y.negative) (a * d) (b * c)

/-- The number with its sign turned round. -/
def neg (x : Binary64) : Binary64 := { x with negative := !x.negative }

end Binary64

end AuditTrail
