import AuditTrail.Text.Utf8
import AuditTrail.Yaml.Place

/-!
# Scalars

A scalar is written plain, in single or double quotes, or as a block. A single break inside a plain or quoted scalar reads as a
space; further breaks stand for themselves. A block keeps its breaks or folds them, and ends as its indicators say.
-/

namespace AuditTrail.Yaml

/-- How a scalar is written. -/
inductive Style where
  | plain
  | quoted
  /-- A block that keeps its breaks. -/
  | literal
  /-- A block that folds its breaks. -/
  | folded
  deriving DecidableEq, Repr

/-- Blanks and breaks between two parts of a scalar. -/
structure Gap where
  /-- The blanks before any break. -/
  blanks : List Char := []
  /-- What the first break reads as. -/
  first : List Char := []
  /-- What all further breaks read as. -/
  more : List Char := []
  /-- Whether there has been a break. -/
  broken : Bool := false
  deriving DecidableEq, Repr

namespace Gap

/-- What a gap reads as. -/
def fold (g : Gap) : List Char :=
  if !g.broken then g.blanks
  else if g.first = ['\n'] then (if g.more.isEmpty then [' '] else g.more)
  else g.first ++ g.more

/-- Reads on over blanks and breaks. In a plain scalar a line may not be indented by tabs up to a column. -/
def read (indent : Option Nat) : Nat → Gap → Place → Option (Gap × Place)
  | 0, g, p => some (g, p)
  | fuel + 1, g, p =>
    match p.peek? with
    | none => some (g, p)
    | some c =>
      if isBlank c then
        if g.broken && c = '\t' && indent.any (p.column < ·) then none
        else read indent fuel (if g.broken then g else { g with blanks := g.blanks ++ [c] }) p.skip
      else if isBreak c then
        let (b, p) := p.readBreak
        read indent fuel (if g.broken then { g with more := g.more ++ b } else { g with first := b, broken := true }) p
      else some (g, p)

end Gap

/-! ## Plain scalars -/

/-- Whether a character has a meaning of its own inside brackets. -/
def isFlowMark (c : Char) : Bool := c = ',' || c = '[' || c = ']' || c = '\x7b' || c = '\x7d'

/-- Reads the part of a plain scalar up to a blank or an indicator. Inside brackets a colon may not meet another indicator. -/
def plainRun (flow : Bool) : Nat → Place → Option (List Char × Place)
  | 0, p => some ([], p)
  | fuel + 1, p =>
    match p.peek? with
    | none => some ([], p)
    | some c =>
      if isBlank c || isBreak c then some ([], p)
      else if flow && c = ':' && p.holds (fun d => isFlowMark d || d = '?') 1 then none
      else if (c = ':' && p.separates 1) || (flow && isFlowMark c) then some ([], p)
      else (plainRun flow fuel p.skip).map fun r => (c :: r.1, r.2)

/-- Reads the parts of a plain scalar. The last component says whether it ends after a break. -/
def plainParts (flow : Bool) (indent : Nat) : Nat → Gap → Place → Option (List Char × Place × Bool)
  | 0, g, p => some ([], p, g.broken)
  | fuel + 1, g, p => do
    if p.atDocumentMark || p.looksAt '#' then some ([], p, g.broken)
    else
      let (run, p) ← plainRun flow p.rest.length p
      if run.isEmpty then some ([], p, g.broken)
      else if !p.holds (fun c => isBlank c || isBreak c) then some (g.fold ++ run, p, false)
      else
        let (next, p) ← Gap.read (some indent) (p.rest.length + 1) {} p
        if !flow && p.column < indent then some (g.fold ++ run, p, next.broken)
        else (plainParts flow indent fuel next p).map fun r => (g.fold ++ run ++ r.1, r.2)

/-- Reads a plain scalar. Outside brackets its lines are indented by at least `indent` columns. -/
def plainScalar (flow : Bool) (indent : Nat) (p : Place) : Option (List Char × Place × Bool) :=
  plainParts flow indent (p.rest.length + 1) {} p

/-! ## Quoted scalars -/

/-- The character that a one-letter escape stands for. -/
def escaped? (c : Char) : Option Char :=
  match c with
  | '0' => some (Char.ofNat 0)
  | 'a' => some (Char.ofNat 0x07)
  | 'b' => some (Char.ofNat 0x08)
  | 't' => some '\t'
  | '\t' => some '\t'
  | 'n' => some '\n'
  | 'v' => some (Char.ofNat 0x0b)
  | 'f' => some (Char.ofNat 0x0c)
  | 'r' => some '\r'
  | 'e' => some (Char.ofNat 0x1b)
  | ' ' => some ' '
  | '\x22' => some '\x22'
  | '/' => some '/'
  | '\\' => some '\\'
  | 'N' => some (Char.ofNat 0x85)
  | '_' => some (Char.ofNat 0xa0)
  | 'L' => some (Char.ofNat 0x2028)
  | 'P' => some (Char.ofNat 0x2029)
  | _ => none

/-- How many hexadecimal digits follow the letter of an escape. -/
def escapeWidth? (c : Char) : Option Nat :=
  if c = 'x' then some 2 else if c = 'u' then some 4 else if c = 'U' then some 8 else none

/-- The value of hexadecimal digits. -/
def hexValue? (cs : List Char) : Option Nat :=
  cs.foldlM (fun n c => if c.toNat < 0x80 then (Octets.hexDigit? (Octets.ofAscii c)).map (n * 16 + ·) else none) 0

/-- Reads an escape after its backslash. -/
def readEscape (p : Place) : Option (Char × Place) := do
  let c ← p.peek?
  match escapeWidth? c with
  | none => (escaped? c).map fun d => (d, p.skip)
  | some width =>
    let digits := (p.rest.drop 1).take width
    let n ← if digits.length = width then hexValue? digits else none
    if (0xd800 ≤ n ∧ n ≤ 0xdfff) ∨ 0x10ffff < n then none
    else some (Char.ofNat n, p.skipMany (width + 1))

/-- Reads the part of a quoted scalar up to a blank or its end. The last component says that an escaped break ended it. -/
def quotedRun (single : Bool) : Nat → Place → Option (List Char × Place × Bool)
  | 0, p => some ([], p, false)
  | fuel + 1, p =>
    match p.peek? with
    | none => some ([], p, false)
    | some c =>
      if isBlank c || isBreak c then some ([], p, false)
      else if single && c = '\'' && p.looksAt '\'' 1 then
        (quotedRun single fuel (p.skipMany 2)).map fun r => ('\'' :: r.1, r.2)
      else if c = (if single then '\'' else '\x22') then some ([], p, false)
      else if !single && c = '\\' then
        if p.holds isBreak 1 then some ([], p.skip.readBreak.2, true)
        else do
          let (d, p) ← readEscape p.skip
          let (cs, r) ← quotedRun single fuel p
          some (d :: cs, r)
      else (quotedRun single fuel p.skip).map fun r => (c :: r.1, r.2)

/-- Reads a quoted scalar after its opening quote. -/
def quotedParts (single : Bool) : Nat → Place → Option (List Char × Place)
  | 0, _ => none
  | fuel + 1, p => do
    if p.atDocumentMark || p.isEnd then none
    else
      let (run, p, joined) ← quotedRun single p.rest.length p
      if !joined && p.looksAt (if single then '\'' else '\x22') then some (run, p.skip)
      else
        let (gap, p) ← Gap.read none (p.rest.length + 1) { broken := joined } p
        (quotedParts single fuel p).map fun r => (run ++ gap.fold ++ r.1, r.2)

/-- Reads a quoted scalar from its opening quote on. -/
def quotedScalar (single : Bool) (p : Place) : Option (List Char × Place) :=
  quotedParts single (p.rest.length + 1) p.skip

/-! ## Block scalars -/

/-- How a block ends. -/
inductive Chomp where
  /-- Without a break. -/
  | strip
  /-- With the break of its last line. -/
  | clip
  /-- With all its breaks. -/
  | keep
  deriving DecidableEq, Repr

/-- How a block ends, if a character says it. -/
def chomp? (c : Char) : Option Chomp := if c = '+' then some .keep else if c = '-' then some .strip else none

/-- How far a block is indented, if a character says it. -/
def indentDigit? (c : Char) : Option Nat := if c.isDigit then some (c.toNat - '0'.toNat) else none

/-- Reads the indicators of a block: how it ends and how far it is indented, in either order. An indentation of zero is not
allowed. -/
def blockHeader (p : Place) : Option (Chomp × Option Nat × Place) := do
  let (chomp, indent, p) := match p.peek?.bind chomp?, p.peek?.bind indentDigit? with
    | some chomp, _ =>
      match (p.peek? 1).bind indentDigit? with
      | some n => (chomp, some n, p.skipMany 2)
      | none => (chomp, none, p.skip)
    | none, some n =>
      match (p.peek? 1).bind chomp? with
      | some chomp => (chomp, some n, p.skipMany 2)
      | none => (.clip, some n, p.skip)
    | none, none => (.clip, none, p)
  let p := (p.skipWhile isBlank).skipComment
  if indent = some 0 || !p.breaks then none else some (chomp, indent, p.readBreak.2)

/-- Reads indentation and breaks before a line of a block. An indentation that is not known yet is found: it is that of the
deepest line so far, and at least `least`. -/
def blockBreaks (least : Nat) : Nat → Option Nat → Nat → List Char → Place → Option (Nat × List Char × Place)
  | 0, _, _, _, _ => none
  | fuel + 1, indent, deepest, acc, p =>
    let room := match indent with
      | some n => n - p.column
      | none => p.rest.length
    let p := p.skipMany (min room (p.rest.takeWhile (· = ' ')).length)
    let deepest := max deepest p.column
    if p.looksAt '\t' && indent.all (p.column < ·) then none
    else if p.holds isBreak then
      let (b, p) := p.readBreak
      blockBreaks least fuel indent deepest (acc ++ b) p
    else some (indent.getD (max deepest (max least 1)), acc, p)

/-- Reads the lines of a block. `pending` is the break of the last line, `blank` whether that line started with a blank, and
`breaks` are the breaks after it; the result ends with the last two of these. -/
def blockLines (literal : Bool) (indent : Nat) :
    Nat → (pending : List Char) → (blank : Bool) → (breaks : List Char) → Place →
      Option (List Char × List Char × List Char × Place)
  | 0, _, _, _, _ => none
  | fuel + 1, pending, blank, breaks, p => do
    if p.column ≠ indent || p.isEnd then some ([], pending, breaks, p)
    else
      let startsBlank := p.holds isBlank
      let lead := if !literal && pending = ['\n'] && !blank && !startsBlank then (if breaks.isEmpty then [' '] else [])
        else pending
      let (line, p) := p.readWhile (!isBreak ·)
      let (b, p) := p.readBreak
      let (_, next, p) ← blockBreaks 0 (p.rest.length + 1) (some indent) 0 [] p
      let (cs, r) ← blockLines literal indent fuel b startsBlank next p
      some (lead ++ breaks ++ line ++ cs, r)

/-- Reads a block after its first indicator. `parent` is the indentation of what it stands in, -1 at the top. -/
def blockScalar (literal : Bool) (parent : Int) (p : Place) : Option (List Char × Place) := do
  let (chomp, indicated, p) ← blockHeader p
  let indent := indicated.map fun n => if 0 ≤ parent then parent.toNat + n else n
  let (indent, breaks, p) ← blockBreaks (parent + 1).toNat (p.rest.length + 1) indent 0 [] p
  let (cs, pending, breaks, p) ← blockLines literal indent (p.rest.length + 1) [] false breaks p
  let tail := match chomp with
    | .strip => []
    | .clip => pending
    | .keep => pending ++ breaks
  some (cs ++ tail, p)

end AuditTrail.Yaml
