/-!
# Places in a YAML text

A place is what is left of a text together with its line and column. Lines end with a line feed, a carriage return, both, a next
line, a line separator or a paragraph separator; the first four read as a line feed.
-/

namespace AuditTrail.Yaml

/-- Whether a character ends a line. -/
def isBreak (c : Char) : Bool :=
  c = '\n' || c = '\r' || c.toNat = 0x85 || c.toNat = 0x2028 || c.toNat = 0x2029

/-- Whether a character is a space or a tab. -/
def isBlank (c : Char) : Bool := c = ' ' || c = '\t'

/-- Whether a character may stand in the name of an anchor, a directive or a tag handle. -/
def isWord (c : Char) : Bool := c.isAlphanum || c = '_' || c = '-'

/-- Whether a character may stand in a text at all. -/
def isAllowed (c : Char) : Bool :=
  let n := c.toNat
  n = 0x09 || n = 0x0a || n = 0x0d || (0x20 ≤ n && n ≤ 0x7e) || n = 0x85 || (0xa0 ≤ n && n ≤ 0xd7ff) ||
    (0xe000 ≤ n && n ≤ 0xfffd) || 0x10000 ≤ n

/-- The character that may mark the order of octets. -/
def byteOrderMark : Char := Char.ofNat 0xfeff

/-- What is left of a text, and where. -/
structure Place where
  rest : List Char
  index : Nat := 0
  line : Nat := 0
  column : Nat := 0
  deriving DecidableEq, Repr

namespace Place

/-- The character so many places ahead. -/
def peek? (p : Place) (n : Nat := 0) : Option Char := p.rest[n]?

/-- Whether a character so many places ahead has a property. The end of the text has none. -/
def holds (p : Place) (f : Char → Bool) (n : Nat := 0) : Bool := (p.peek? n).any f

/-- Whether a given character is so many places ahead. -/
def looksAt (p : Place) (c : Char) (n : Nat := 0) : Bool := p.holds (· = c) n

/-- Whether the text ends here. -/
def isEnd (p : Place) : Bool := p.rest.isEmpty

/-- Whether there is a break or the end of the text so many places ahead. -/
def breaks (p : Place) (n : Nat := 0) : Bool := (p.peek? n).all isBreak

/-- Whether there is a blank, a break or the end of the text so many places ahead. -/
def separates (p : Place) (n : Nat := 0) : Bool := (p.peek? n).all fun c => isBlank c || isBreak c

/-- The place after one character of a line. -/
def skip (p : Place) : Place :=
  match p.rest with
  | [] => p
  | _ :: rest => { p with rest := rest, index := p.index + 1, column := p.column + 1 }

/-- The place after some characters of a line. -/
def skipMany : Nat → Place → Place
  | 0, p => p
  | n + 1, p => skipMany n p.skip

/-- The place at the start of the next line, with what the break reads as. -/
def readBreak (p : Place) : List Char × Place :=
  match p.rest with
  | '\r' :: '\n' :: rest => (['\n'], ⟨rest, p.index + 2, p.line + 1, 0⟩)
  | c :: rest =>
    if isBreak c then
      ([if c.toNat = 0x2028 || c.toNat = 0x2029 then c else '\n'], ⟨rest, p.index + 1, p.line + 1, 0⟩)
    else ([], p)
  | [] => ([], p)

/-- The characters of a line as long as they have a property, and the place after them. -/
def readWhile (f : Char → Bool) (p : Place) : List Char × Place :=
  let cs := p.rest.takeWhile f
  (cs, { p with rest := p.rest.dropWhile f, index := p.index + cs.length, column := p.column + cs.length })

/-- The place after the characters that have a property. -/
def skipWhile (f : Char → Bool) (p : Place) : Place := (p.readWhile f).2

/-- The place after a comment, if one starts here. -/
def skipComment (p : Place) : Place := if p.looksAt '#' then p.skipWhile (!isBreak ·) else p

/-- Whether three of a character stand at the start of a line, alone. -/
def tripled (p : Place) (c : Char) : Bool :=
  p.column = 0 && p.looksAt c && p.looksAt c 1 && p.looksAt c 2 && p.separates 3

/-- Whether a line here starts or ends a document. -/
def atDocumentMark (p : Place) : Bool := p.tripled '-' || p.tripled '.'

end Place

end AuditTrail.Yaml
