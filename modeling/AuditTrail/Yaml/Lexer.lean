import AuditTrail.Yaml.Token

/-!
# The tokens of a text

`Token.ofText?` finds the tokens of a text from front to back. A token that may turn out to be a key is remembered until a colon
follows on its line or the line ends. Outside brackets, a collection opens where a key or an entry stands further to the right
than what surrounds it, and ends where something stands further to the left.
-/

namespace AuditTrail.Yaml

/-- A token that may turn out to be a key. -/
structure Candidate where
  /-- Whether nothing but a key can stand here. -/
  required : Bool
  /-- How many tokens there are before it. -/
  number : Nat
  place : Place
  deriving DecidableEq, Repr

/-- Where the reading of tokens stands. -/
structure Lexer where
  place : Place
  tokens : List Token := []
  /-- The column of the innermost collection outside brackets, -1 at the top. -/
  indent : Int := -1
  /-- The columns of the collections around it. -/
  outer : List Int := []
  /-- Whether a key may start here. -/
  keyAllowed : Bool := true
  /-- The candidate inside the innermost brackets. -/
  candidate : Option Candidate := none
  /-- The candidates around these brackets, one for each level of them. -/
  around : List (Option Candidate) := []
  deriving Repr

namespace Lexer

/-- Whether the place is inside brackets. -/
def inFlow (l : Lexer) : Bool := !l.around.isEmpty

/-- How far a key may reach, in characters. -/
def longestKey : Nat := 1024

/-- The lexer with tokens added. -/
def emit (l : Lexer) (ts : List Token) : Lexer := { l with tokens := l.tokens ++ ts }

/-- The lexer without its candidate. A candidate that had to be a key cannot be dropped. -/
def drop (l : Lexer) : Option Lexer :=
  if l.candidate.any (·.required) then none else some { l with candidate := none }

/-- Drops a candidate that has become too old: its line has ended, or it is too long. -/
def dropStale (p : Place) : Option Candidate → Option (Option Candidate)
  | none => some none
  | some c =>
    if c.place.line < p.line ∨ c.place.index + longestKey < p.index then if c.required then none else some none
    else some (some c)

/-- Drops all candidates that have become too old. -/
def dropAllStale (l : Lexer) : Option Lexer := do
  let candidate ← dropStale l.place l.candidate
  let around ← l.around.mapM (dropStale l.place)
  some { l with candidate := candidate, around := around }

/-- Remembers the next token as a candidate. -/
def remember (l : Lexer) : Option Lexer :=
  if !l.keyAllowed then some l
  else do
    let required := !l.inFlow && l.indent == l.place.column
    let l ← l.drop
    some { l with candidate := some ⟨required, l.tokens.length, l.place⟩ }

/-- Opens a collection at a column, if it lies further to the right. Its token comes after `number` others. -/
def openAt (l : Lexer) (column : Nat) (number : Nat) (t : Token) : Lexer :=
  if l.inFlow || (column : Int) ≤ l.indent then l
  else { l with
    indent := column, outer := l.indent :: l.outer
    tokens := l.tokens.take number ++ t :: l.tokens.drop number }

/-- Ends the collections that lie further to the right than a column. -/
def closeTo (column : Int) : List Int → Lexer → Lexer
  | [], l => l
  | i :: rest, l =>
    if column < l.indent then closeTo column rest { l with indent := i, outer := rest, tokens := l.tokens ++ [.blockEnd] }
    else l

/-- Ends the collections that lie further to the right than a column, outside brackets. -/
def unroll (l : Lexer) (column : Int) : Lexer := if l.inFlow then l else closeTo column l.outer l

/-- Goes on to the next token over blanks, comments and breaks. A tab is a blank only where no key may start. -/
def skipToToken : Nat → Lexer → Lexer
  | 0, l => l
  | fuel + 1, l =>
    let p := if l.place.column = 0 && l.place.looksAt byteOrderMark then l.place.skip else l.place
    let p := p.skipWhile fun c => c = ' ' || (c = '\t' && (l.inFlow || !l.keyAllowed))
    let p := p.skipComment
    if p.holds isBreak then
      skipToToken fuel { l with place := p.readBreak.2, keyAllowed := l.keyAllowed || !l.inFlow }
    else { l with place := p }

/-- A token of one sign, after which a key may start or not. -/
def sign (l : Lexer) (t : Token) (width : Nat) (keyAllowed : Bool) : Lexer :=
  { l with place := l.place.skipMany width, keyAllowed := keyAllowed }.emit [t]

/-- A token that has been read up to a place. -/
def finish (l : Lexer) (t : Token) (p : Place) (keyAllowed : Bool) : Lexer :=
  { l with place := p, keyAllowed := keyAllowed }.emit [t]

/-- The start of brackets. -/
def openFlow (l : Lexer) (t : Token) : Option Lexer := do
  let l ← l.remember
  some ({ l with candidate := none, around := l.candidate :: l.around }.sign t 1 true)

/-- The end of brackets. -/
def closeFlow (l : Lexer) (t : Token) : Option Lexer := do
  let l ← l.drop
  let l := match l.around with
    | [] => l
    | c :: around => { l with candidate := c, around := around }
  some (l.sign t 1 false)

/-- A hyphen before an entry. -/
def blockEntry (l : Lexer) : Option Lexer :=
  if l.inFlow then l.drop.map (·.sign .blockEntry 1 true)
  else if !l.keyAllowed then none
  else (l.openAt l.place.column l.tokens.length .blockSequenceStart).drop.map (·.sign .blockEntry 1 true)

/-- A question mark before a key. -/
def explicitKey (l : Lexer) : Option Lexer :=
  if l.inFlow then l.drop.map (·.sign .key 1 false)
  else if !l.keyAllowed then none
  else (l.openAt l.place.column l.tokens.length .blockMappingStart).drop.map (·.sign .key 1 true)

/-- A colon before a value. The candidate, if there is one, becomes its key. -/
def mappingValue (l : Lexer) : Option Lexer :=
  match l.candidate with
  | some c =>
    let l := { l with tokens := l.tokens.take c.number ++ Token.key :: l.tokens.drop c.number, candidate := none }
    some ((l.openAt c.place.column c.number .blockMappingStart).sign .value 1 false)
  | none =>
    if l.inFlow then some (l.sign .value 1 false)
    else if !l.keyAllowed then none
    else some ((l.openAt l.place.column l.tokens.length .blockMappingStart).sign .value 1 true)

/-- A block scalar. -/
def block (l : Lexer) (literal : Bool) : Option Lexer := do
  let l ← l.drop
  let (cs, p) ← blockScalar literal l.indent l.place.skip
  some (l.finish (.scalar (if literal then .literal else .folded) (String.ofList cs)) p true)

/-- A quoted scalar. -/
def quoted (l : Lexer) (single : Bool) : Option Lexer := do
  let l ← l.remember
  let (cs, p) ← quotedScalar single l.place
  some (l.finish (.scalar .quoted (String.ofList cs)) p false)

/-- A plain scalar. After one that ends with a break a key may start. -/
def plain (l : Lexer) : Option Lexer := do
  let l ← l.remember
  let (cs, p, broken) ← plainScalar l.inFlow (l.indent + 1).toNat l.place
  some (l.finish (.scalar .plain (String.ofList cs)) p broken)

/-- A tag, an anchor or an alias, read by `read`. -/
def property (l : Lexer) (read : Place → Option (Token × Place)) : Option Lexer := do
  let l ← l.remember
  let (t, p) ← read l.place
  some (l.finish t p false)

/-- The end of what surrounds a directive or a mark of a document. -/
def leaveAll (l : Lexer) : Option Lexer := (l.unroll (-1)).drop

/-- Whether a plain scalar may start here. -/
def startsPlain (l : Lexer) : Bool :=
  let p := l.place
  !(p.separates || p.holds fun c => "-?:,[]\x7b\x7d#&*!|>'\x22%@\x60".toList.contains c) ||
    (p.looksAt '-' && !p.holds isBlank 1) ||
    (!l.inFlow && (p.looksAt '?' || p.looksAt ':') && !p.separates 1)

/-- Reads the token that starts here. -/
def token (l : Lexer) : Option Lexer :=
  let p := l.place
  let spaced := l.inFlow || p.separates 1
  if p.column = 0 && p.looksAt '%' then do
    let l ← l.leaveAll
    let (t, p) ← readDirective l.place
    some (l.finish t p false)
  else if p.tripled '-' then l.leaveAll.map (·.sign .documentStart 3 false)
  else if p.tripled '.' then l.leaveAll.map (·.sign .documentEnd 3 false)
  else if p.looksAt '[' then l.openFlow .flowSequenceStart
  else if p.looksAt '\x7b' then l.openFlow .flowMappingStart
  else if p.looksAt ']' then l.closeFlow .flowSequenceEnd
  else if p.looksAt '\x7d' then l.closeFlow .flowMappingEnd
  else if p.looksAt ',' then l.drop.map (·.sign .flowEntry 1 true)
  else if p.looksAt '-' && p.separates 1 then l.blockEntry
  else if p.looksAt '?' && spaced then l.explicitKey
  else if p.looksAt ':' && spaced then l.mappingValue
  else if p.looksAt '*' then l.property fun p => (readName p.skip).map fun r => (.alias r.1, r.2)
  else if p.looksAt '&' then l.property fun p => (readName p.skip).map fun r => (.anchor r.1, r.2)
  else if p.looksAt '!' then l.property fun p => (readTag l.inFlow p).map fun r => (.tag r.1, r.2)
  else if p.looksAt '|' && !l.inFlow then l.block true
  else if p.looksAt '>' && !l.inFlow then l.block false
  else if p.looksAt '\'' then l.quoted true
  else if p.looksAt '\x22' then l.quoted false
  else if l.startsPlain then l.plain
  else none

/-- Reads tokens up to the end of the text. -/
def run : Nat → Lexer → Option Lexer
  | 0, _ => none
  | fuel + 1, l => do
    let l ← (l.skipToToken (l.place.rest.length + 1)).dropAllStale
    let l := l.unroll l.place.column
    if l.place.isEnd then l.leaveAll
    else
      let l ← l.token
      run fuel l

end Lexer

/-- The tokens of a text, if it is well-formed as far as tokens go. A mark of the order of octets at the start is no part of it. -/
def Token.ofText? (s : String) : Option (List Token) :=
  let cs := match s.toList with
    | c :: rest => if c = byteOrderMark then rest else c :: rest
    | [] => []
  if cs.all isAllowed then
    (Lexer.run (cs.length + 2) { place := { rest := cs } }).map (·.tokens)
  else none

end AuditTrail.Yaml
