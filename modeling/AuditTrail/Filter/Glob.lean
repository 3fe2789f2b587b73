/-!
# Glob patterns

In a pattern a star stands for any run of characters and a question mark for exactly one, neither reaching over a line feed;
every other character stands for itself. A pattern has to match the whole text.

The matcher goes through the text from its end and keeps, for every suffix of the pattern, whether it matches what has been
seen. Its time is the product of the two lengths, whatever the pattern.
-/

namespace AuditTrail.Glob

/-- Whether one character of a pattern, no star, stands for a character. -/
def matchesOne (p c : Char) : Bool := if p = '?' then c ≠ '\n' else p = c

/-- For every suffix of the pattern, longest first, whether it matches the empty text. -/
def emptyRow : List Char → List Bool
  | [] => [true]
  | p :: ps => (p == '*' && (emptyRow ps).headD false) :: emptyRow ps

/-- For every suffix of the pattern whether it matches the text `c :: t`, given the row of `t`. -/
def stepRow (c : Char) : List Char → List Bool → List Bool
  | [], _ => [false]
  | p :: ps, row =>
    let shorter := stepRow c ps row.tail
    (if p = '*' then shorter.headD false || (c ≠ '\n' && row.headD false)
      else matchesOne p c && row.tail.headD false) :: shorter

/-- For every suffix of the pattern, longest first, whether it matches the text. -/
def row (pattern : List Char) : List Char → List Bool
  | [] => emptyRow pattern
  | c :: t => stepRow c pattern (row pattern t)

/-- Whether the pattern matches the whole text. -/
def isMatch (pattern text : String) : Bool := (row pattern.toList text.toList).headD false

end AuditTrail.Glob
