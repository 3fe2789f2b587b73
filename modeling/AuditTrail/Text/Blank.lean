/-!
# Blank characters

The characters of the property White_Space, which separate and surround words in any script.
-/

namespace AuditTrail.Text

/-- The ranges of the property White_Space. -/
def blankRanges : List (Nat × Nat) := [
  (0x9, 0xd), (0x20, 0x20), (0x85, 0x85), (0xa0, 0xa0), (0x1680, 0x1680), (0x2000, 0x200a), (0x2028, 0x2029),
  (0x202f, 0x202f), (0x205f, 0x205f), (0x3000, 0x3000)]

/-- Whether a code point lies in one of the ranges. -/
def inRanges (ranges : List (Nat × Nat)) (n : Nat) : Bool :=
  ranges.any fun r => r.1 ≤ n && n ≤ r.2

/-- Whether the character is white space. -/
def isBlank (c : Char) : Bool := inRanges blankRanges c.toNat

/-- The characters after leading white space. -/
def trimStart (cs : List Char) : List Char := cs.dropWhile isBlank

/-- The text without white space at its ends. -/
def trim (s : String) : String := String.ofList (trimStart (trimStart s.toList).reverse).reverse

/-- Whether a text holds nothing but white space. -/
def blank (s : String) : Bool := s.toList.all isBlank

end AuditTrail.Text
