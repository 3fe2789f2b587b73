import AuditTrail.Yaml.Lexer

/-!
# Nodes

A YAML document is a tree of nodes; an alias refers to a node by the number that its anchor was given. `Node.ofTokens?` reads
the documents of a text from its tokens, each node with the tag its handle stands for.

Anchors are numbered by the count of names known when they appear, so that a name that is used again may take over the number of
another one.
-/

namespace AuditTrail.Yaml

/-- A node. An anchored node has the number of its anchor. -/
inductive Node where
  | scalar (anchor : Option Nat) (tag : Option Octets) (style : Style) (text : String)
  | sequence (anchor : Option Nat) (tag : Option Octets) (items : List Node)
  | mapping (anchor : Option Nat) (tag : Option Octets) (entries : List (Node × Node))
  | alias (number : Nat)
  deriving Repr

namespace Node

/-- Nothing, as it stands for a value that is not written. -/
def empty : Node := .scalar none none .plain ""

/-- What is known while tokens are read: the tokens that are left, the handles of tags, and the numbers of anchors. -/
structure Reading where
  tokens : List Token
  handles : List (String × Octets) := []
  anchors : List (String × Nat) := []

/-- A reader of tokens. -/
abbrev Parse := StateT Reading Option

/-- The next token, if there is one. -/
def next? : Parse (Option Token) := do return (← get).tokens.head?

/-- Goes past the next token. -/
def advance : Parse Unit := modify fun r => { r with tokens := r.tokens.tail }

/-- Goes past the next token if it is the given one. -/
def accept (t : Token) : Parse Bool := do
  if (← next?) == some t then
    advance
    return true
  else return false

/-- Goes past the next token, which has to be the given one. -/
def expect (t : Token) : Parse Unit := do if ← accept t then return () else failure

/-- The octets of an ASCII text. -/
def octets (s : String) : Octets := Utf8.encode s

/-- What the handles stand for if nothing else is said. -/
def defaultHandles : List (String × Octets) := [("!", octets "!"), ("!!", octets "tag:yaml.org,2002:")]

/-- The tag that a token denotes. -/
def resolveTag (t : TagToken) : Parse Octets := do
  if t.handle.isEmpty then return t.suffix
  else match (← get).handles.lookup t.handle with
    | some start => return start ++ t.suffix
    | none => failure

/-- Gives an anchor its number. -/
def numberAnchor (name : String) : Parse Nat := do
  let anchors := (← get).anchors
  let n := anchors.length
  let renumbered := anchors.map fun a => if a.1 = name then (name, n) else a
  modify fun r => { r with anchors := if (anchors.lookup name).isSome then renumbered else anchors ++ [(name, n)] }
  return n

/-- The anchor and the tag of a node, in either order. -/
def properties : Parse (Option String × Option Octets) := do
  match ← next? with
  | some (.anchor a) =>
    advance
    match ← next? with
    | some (.tag t) =>
      advance
      return (some a, some (← resolveTag t))
    | _ => return (some a, none)
  | some (.tag t) =>
    advance
    match ← next? with
    | some (.anchor a) =>
      advance
      return (some a, some (← resolveTag t))
    | _ => return (none, some (← resolveTag t))
  | _ => return (none, none)

/-- Whether the next token is one of those that end a value, so that there is none. -/
def endsAt (ts : List Token) : Parse Bool := do
  match ← next? with
  | some t => return ts.contains t
  | none => return false

/-- A node of which only anchor or tag is written. -/
def bare (name : Option String) (tag : Option Octets) (anchor : Parse (Option Nat)) : Parse Node := do
  if name.isNone && tag.isNone then failure
  else return .scalar (← anchor) tag .plain ""

mutual

/-- A node. `block` says whether it may be a collection outside brackets, `indentless` whether entries may stand at the column
of the key before them. -/
def node : Nat → (block indentless : Bool) → Parse Node
  | 0, _, _ => failure
  | fuel + 1, block, indentless => do
    match ← next? with
    | some (.alias name) =>
      advance
      match (← get).anchors.lookup name with
      | some n => return .alias n
      | none => failure
    | _ =>
      let (name, tag) ← properties
      let anchor : Parse (Option Nat) := match name with
        | some a => some <$> numberAnchor a
        | none => return none
      match ← next? with
      | some .blockEntry =>
        if indentless then
          let a ← anchor
          return .sequence a tag (← indentlessEntries fuel)
        else bare name tag anchor
      | some (.scalar style text) =>
        advance
        let tag := if tag == some (octets "!") then none else tag
        return .scalar (← anchor) tag style text
      | some .flowSequenceStart =>
        advance
        let a ← anchor
        return .sequence a tag (← flowItems fuel true)
      | some .flowMappingStart =>
        advance
        let a ← anchor
        return .mapping a tag (← flowEntries fuel true)
      | some .blockSequenceStart =>
        if block then
          advance
          let a ← anchor
          return .sequence a tag (← blockItems fuel)
        else bare name tag anchor
      | some .blockMappingStart =>
        if block then
          advance
          let a ← anchor
          return .mapping a tag (← blockEntries fuel)
        else bare name tag anchor
      | _ => bare name tag anchor

/-- A node, or nothing before one of some tokens. -/
def nodeUnless (ts : List Token) (block indentless : Bool) : Nat → Parse Node
  | 0 => failure
  | fuel + 1 => do if ← endsAt ts then return .empty else node fuel block indentless

/-- The entries of a sequence outside brackets. -/
def blockItems : Nat → Parse (List Node)
  | 0 => failure
  | fuel + 1 => do
    if ← accept .blockEntry then
      let item ← nodeUnless [.blockEntry, .blockEnd] true false fuel
      return item :: (← blockItems fuel)
    else
      expect .blockEnd
      return []

/-- The entries of a sequence that is not indented. -/
def indentlessEntries : Nat → Parse (List Node)
  | 0 => failure
  | fuel + 1 => do
    if ← accept .blockEntry then
      let item ← nodeUnless [.blockEntry, .key, .value, .blockEnd] true false fuel
      return item :: (← indentlessEntries fuel)
    else return []

/-- The entries of a mapping outside brackets. -/
def blockEntries : Nat → Parse (List (Node × Node))
  | 0 => failure
  | fuel + 1 => do
    if ← accept .key then
      let k ← nodeUnless [.key, .value, .blockEnd] true true fuel
      let v ← if ← accept .value then nodeUnless [.key, .value, .blockEnd] true true fuel else pure .empty
      return (k, v) :: (← blockEntries fuel)
    else
      expect .blockEnd
      return []

/-- The items of a sequence in brackets. An item may be a single entry of a mapping. -/
def flowItems : Nat → (first : Bool) → Parse (List Node)
  | 0, _ => failure
  | fuel + 1, first => do
    if ← accept .flowSequenceEnd then return []
    else
      if !first then expect .flowEntry
      if ← accept .key then
        let k ← do
          if ← endsAt [.value, .flowEntry, .flowSequenceEnd] then
            advance
            pure .empty
          else node fuel false false
        let v ← if ← accept .value then nodeUnless [.flowEntry, .flowSequenceEnd] false false fuel else pure .empty
        return .mapping none none [(k, v)] :: (← flowItems fuel false)
      else if ← accept .flowSequenceEnd then return []
      else
        let item ← node fuel false false
        return item :: (← flowItems fuel false)

/-- The entries of a mapping in brackets. A key may stand without a value. -/
def flowEntries : Nat → (first : Bool) → Parse (List (Node × Node))
  | 0, _ => failure
  | fuel + 1, first => do
    if ← accept .flowMappingEnd then return []
    else
      if !first then expect .flowEntry
      if ← accept .key then
        let k ← nodeUnless [.value, .flowEntry, .flowMappingEnd] false false fuel
        let v ← if ← accept .value then nodeUnless [.flowEntry, .flowMappingEnd] false false fuel else pure .empty
        return (k, v) :: (← flowEntries fuel false)
      else if ← accept .flowMappingEnd then return []
      else
        let k ← node fuel false false
        return (k, .empty) :: (← flowEntries fuel false)

end

/-! ## Documents -/

/-- The directives before a document. There is one version at most, 1.1 or 1.2, and a handle is declared once. -/
def directives : Nat → (version : Bool) → (declared : List (String × Octets)) → Parse (List (String × Octets))
  | 0, _, _ => failure
  | fuel + 1, version, declared => do
    match ← next? with
    | some (.versionDirective major minor) =>
      if version || major ≠ 1 || (minor ≠ 1 && minor ≠ 2) then failure
      else
        advance
        directives fuel true declared
    | some (.tagDirective handle start) =>
      if (declared.lookup handle).isSome then failure
      else
        advance
        directives fuel version (declared ++ [(handle, start)])
    | _ => return declared ++ defaultHandles

/-- Goes past marks for the end of a document. -/
def skipEnds : Nat → Parse Unit
  | 0 => failure
  | fuel + 1 => do if ← accept .documentEnd then skipEnds fuel else return ()

/-- The documents of a text. The first one may begin without a mark. -/
def documents : Nat → (first : Bool) → Parse (List Node)
  | 0, _ => failure
  | fuel + 1, first => do
    if !first then skipEnds fuel
    modify fun r => { r with anchors := [], handles := defaultHandles }
    match ← next? with
    | none => return []
    | some t =>
      let marked := match t with
        | .versionDirective .. | .tagDirective .. | .documentStart => true
        | _ => false
      let root ← do
        if first && !marked then node fuel true false
        else
          let handles ← directives fuel false []
          modify fun r => { r with handles := handles }
          expect .documentStart
          match ← next? with
          | none | some (.versionDirective ..) | some (.tagDirective ..) | some .documentStart | some .documentEnd =>
            pure .empty
          | _ => node fuel true false
      let _ ← accept .documentEnd
      return root :: (← documents fuel false)

/-- The documents of some tokens. -/
def ofTokens? (ts : List Token) : Option (List Node) :=
  ((documents (4 * ts.length + 8) true).run { tokens := ts }).map (·.1)

mutual

/-- The anchored nodes of a tree with their numbers, from front to back. -/
def anchored : Node → List (Nat × Node)
  | .scalar a t s x => (a.map fun n => (n, .scalar a t s x)).toList
  | .sequence a t items => (a.map fun n => (n, .sequence a t items)).toList ++ anchoredItems items
  | .mapping a t entries => (a.map fun n => (n, .mapping a t entries)).toList ++ anchoredEntries entries
  | .alias _ => []

/-- The anchored nodes of some trees. -/
def anchoredItems : List Node → List (Nat × Node)
  | [] => []
  | n :: rest => anchored n ++ anchoredItems rest

/-- The anchored nodes of some entries. -/
def anchoredEntries : List (Node × Node) → List (Nat × Node)
  | [] => []
  | (k, v) :: rest => anchored k ++ anchored v ++ anchoredEntries rest

end

end Node

/-- A document: its root, and the nodes that aliases may refer to. -/
structure Document where
  root : Node
  anchored : List (Nat × Node)

namespace Document

/-- The only document of a text; an empty text is one with nothing in it. -/
def ofText? (s : String) : Option Document := do
  let tokens ← Token.ofText? s
  match ← Node.ofTokens? tokens with
  | [] => some ⟨.empty, []⟩
  | [root] => some ⟨root, root.anchored⟩
  | _ => none

/-- The node itself, or the one that it is an alias of. Of two anchored nodes with one number the later counts. -/
def resolve (d : Document) : Node → Node
  | .alias n => (d.anchored.reverse.lookup n).getD .empty
  | n => n

end Document

end AuditTrail.Yaml
