import AuditTrail.Yaml.Scalar

/-!
# Tokens

The tokens of a YAML text. Where indentation opens or closes a collection there is a token for it, too, and a key that no
question mark announces has its token before it.
-/

namespace AuditTrail.Yaml

/-- The two parts of a tag: the handle that stands for a known beginning, and the rest in octets. -/
structure TagToken where
  handle : String
  suffix : Octets
  deriving DecidableEq, Repr

/-- A token. -/
inductive Token where
  | versionDirective (major minor : Nat)
  | tagDirective (handle : String) (start : Octets)
  | documentStart
  | documentEnd
  | blockSequenceStart
  | blockMappingStart
  | blockEnd
  | flowSequenceStart
  | flowSequenceEnd
  | flowMappingStart
  | flowMappingEnd
  | blockEntry
  | flowEntry
  | key
  | value
  | alias (name : String)
  | anchor (name : String)
  | tag (t : TagToken)
  | scalar (style : Style) (text : String)
  deriving DecidableEq, Repr

/-! ## Names, tags and directives -/

/-- Reads the name of an anchor or an alias after its sign. -/
def readName (p : Place) : Option (String × Place) :=
  let (name, p) := p.readWhile isWord
  if name.isEmpty then none
  else if p.separates || p.holds fun c => "?:,]\x7d%@\x60".toList.contains c then some (String.ofList name, p)
  else none

/-- The number of octets of a character whose first octet is given. -/
def octetWidth? (b : UInt8) : Option Nat :=
  if b &&& 0x80 == 0 then some 1
  else if b &&& 0xe0 == 0xc0 then some 2
  else if b &&& 0xf0 == 0xe0 then some 3
  else if b &&& 0xf8 == 0xf0 then some 4
  else none

/-- Reads one octet of a tag, written as a percent sign and two hexadecimal digits. -/
def readPercent (p : Place) : Option (UInt8 × Place) :=
  if p.looksAt '%' && (p.rest.drop 1).length ≥ 2 then
    (hexValue? ((p.rest.drop 1).take 2)).map fun n => (n.toUInt8, p.skipMany 3)
  else none

/-- Reads the octets of a character that follow its first one. -/
def readTrailing : Nat → Place → Option (Octets × Place)
  | 0, p => some ([], p)
  | n + 1, p => do
    let (b, p) ← readPercent p
    if b &&& 0xc0 == 0x80 then
      let (bs, p) ← readTrailing n p
      some (b :: bs, p)
    else none

/-- Whether a character may stand in a tag. Some may only in one that is written out in full. -/
def isTagChar (full : Bool) (c : Char) : Bool :=
  isWord c || ";/?:@&=+$.!~*'()%".toList.contains c || (full && ",[]".toList.contains c)

/-- Reads the characters of a tag. -/
def tagChars (full : Bool) : Nat → Place → Option (Octets × Place)
  | 0, p => some ([], p)
  | fuel + 1, p =>
    match p.peek? with
    | none => some ([], p)
    | some c =>
      if !isTagChar full c then some ([], p)
      else if c = '%' then do
        let (b, p) ← readPercent p
        let width ← octetWidth? b
        let (bs, p) ← readTrailing (width - 1) p
        let (more, p) ← tagChars full fuel p
        some (b :: bs ++ more, p)
      else (tagChars full fuel p.skip).map fun r => (Octets.ofAscii c :: r.1, r.2)

/-- Reads a tag that is not empty. -/
def readTagUri (full : Bool) (p : Place) : Option (Octets × Place) := do
  let (bs, q) ← tagChars full p.rest.length p
  if bs.isEmpty then none else some (bs, q)

/-- Reads a handle: an exclamation mark, and if a name and a second mark follow, these. The last component says whether there is
a second mark. -/
def readHandle (p : Place) : Option (String × Place × Bool) :=
  if !p.looksAt '!' then none
  else
    let (name, q) := p.skip.readWhile isWord
    if q.looksAt '!' then some (String.ofList ('!' :: name ++ ['!']), q.skip, true)
    else some (String.ofList ('!' :: name), q, false)

/-- Reads a tag. -/
def readTag (flow : Bool) (p : Place) : Option (TagToken × Place) := do
  let (t, p) ←
    if p.looksAt '<' 1 then do
      let (uri, p) ← readTagUri true (p.skipMany 2)
      if p.looksAt '>' then some (TagToken.mk "" uri, p.skip) else none
    else do
      let (handle, q, closed) ← readHandle p
      if closed then do
        let (uri, q) ← readTagUri false q
        some (TagToken.mk handle uri, q)
      else do
        let (more, q) ← tagChars false q.rest.length q
        let suffix := Utf8.encode (String.ofList (handle.toList.drop 1)) ++ more
        some (if suffix.isEmpty then TagToken.mk "" [Octets.ofAscii '!'] else TagToken.mk "!" suffix, q)
  if p.separates || (flow && p.looksAt ',') then some (t, p) else none

/-- Reads a number of at most nine digits. -/
def readVersionNumber (p : Place) : Option (Nat × Place) :=
  let (ds, p) := p.readWhile Char.isDigit
  if ds.isEmpty || 9 < ds.length then none else some (ds.foldl (fun n c => n * 10 + (c.toNat - '0'.toNat)) 0, p)

/-- Reads a directive from its percent sign to the end of its line. -/
def readDirective (p : Place) : Option (Token × Place) := do
  let (name, p) := p.skip.readWhile isWord
  if !p.separates then none
  else
    let (t, p) ←
      if name = "YAML".toList then do
        let (major, p) ← readVersionNumber (p.skipWhile isBlank)
        if !p.looksAt '.' then none
        else
          let (minor, p) ← readVersionNumber p.skip
          some (Token.versionDirective major minor, p)
      else if name = "TAG".toList then do
        let (handle, p, closed) ← readHandle (p.skipWhile isBlank)
        if (!closed && handle ≠ "!") || !p.holds isBlank then none
        else
          let (uri, p) ← readTagUri true (p.skipWhile isBlank)
          if p.separates then some (Token.tagDirective handle uri, p) else none
      else none
    let p := (p.skipWhile isBlank).skipComment
    if p.breaks then some (t, p.readBreak.2) else none

end AuditTrail.Yaml
