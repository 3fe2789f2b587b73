import AuditTrail.Yaml.Node

/-!
# Values of nodes

How nodes are read as values of a wanted type. A text is any scalar. Numbers and truth values are plain scalars, or literal blocks
with the tag of their type. Where a collection is wanted, nothing stands for an empty one.
-/

namespace AuditTrail.Yaml

/-- The digits of a number in a base, at least one. -/
def digitsIn? (base : Nat) (cs : List Char) : Option Nat :=
  if cs.isEmpty then none
  else cs.foldlM (fun n c => do
    let d ← if c.toNat < 0x80 then Octets.hexDigit? (Octets.ofAscii c) else none
    if d < base then some (n * base + d) else none) 0

/-- A number with the letter of its base after a zero, if it is written so. -/
def basedNumber? (cs : List Char) : Option Nat :=
  match cs with
  | '0' :: 'x' :: rest => digitsIn? 16 rest
  | '0' :: 'o' :: rest => digitsIn? 8 rest
  | '0' :: 'b' :: rest => digitsIn? 2 rest
  | _ => none

/-- A decimal number. A zero may not come before other digits. -/
def decimal? (cs : List Char) : Option Nat :=
  if cs.length > 1 && cs.head? == some '0' then none else digitsIn? 10 cs

/-- A number without a sign. -/
def magnitude? (cs : List Char) : Option Nat := (basedNumber? cs).orElse fun _ => decimal? cs

/-- A natural number, with an optional plus. -/
def unsigned? (s : String) : Option Nat :=
  match s.toList with
  | '+' :: cs => magnitude? cs
  | cs => magnitude? cs

/-- A whole number with an optional sign. -/
def signed? (s : String) : Option Int :=
  match s.toList with
  | '-' :: cs => (magnitude? cs).map fun n => -(n : Int)
  | '+' :: cs => (magnitude? cs).map Int.ofNat
  | cs => (magnitude? cs).map Int.ofNat

/-- A truth value. -/
def bool? (s : String) : Option Bool :=
  if ["true", "True", "TRUE"].contains s then some true
  else if ["false", "False", "FALSE"].contains s then some false
  else none

/-- Whether a plain scalar is a null. -/
def isNull (s : String) : Bool := ["null", "Null", "NULL", "~"].contains s

/-- The tag of a type that every text knows. -/
def coreTag (name : String) : Octets := Utf8.encode ("tag:yaml.org,2002:" ++ name)

namespace Document

/-- The text of a scalar. -/
def text (d : Document) (n : Node) : Option String :=
  match d.resolve n with
  | .scalar _ _ _ s => some s
  | _ => none

/-- The text of a scalar that may be a value of a core type: a plain one, or a literal block with the tag of the type. -/
def coreText (d : Document) (type : String) (n : Node) : Option String :=
  match d.resolve n with
  | .scalar _ _ .plain s => some s
  | .scalar _ tag .literal s => if tag == some (coreTag type) then some s else none
  | _ => none

/-- A natural number up to a greatest one. -/
def nat (d : Document) (greatest : Nat) (n : Node) : Option Nat := do
  let k ← unsigned? (← d.coreText "int" n)
  if k ≤ greatest then some k else none

/-- A natural number of 32 bits. -/
def uint32 (d : Document) (n : Node) : Option UInt32 := (d.nat (UInt32.size - 1) n).map UInt32.ofNat

/-- A natural number of 64 bits. -/
def uint64 (d : Document) (n : Node) : Option UInt64 := (d.nat (UInt64.size - 1) n).map UInt64.ofNat

/-- A whole number of 32 bits. -/
def int32 (d : Document) (n : Node) : Option Int32 := do
  let k ← signed? (← d.coreText "int" n)
  if -0x80000000 ≤ k ∧ k ≤ 0x7fffffff then some (Int32.ofInt k) else none

/-- A truth value. -/
def bool (d : Document) (n : Node) : Option Bool := do bool? (← d.coreText "bool" n)

/-- A value that may be null. A plain scalar is null if it is empty or a null, and one with the tag of null has to be one. -/
def optional (d : Document) (read : Node → Option α) (n : Node) : Option (Option α) :=
  match d.resolve n with
  | .scalar a (some tag) .plain s =>
    if tag == coreTag "null" then if isNull s then some none else none
    else (read (.scalar a (some tag) .plain s)).map some
  | .scalar a none .plain s => if s.isEmpty || isNull s then some none else (read (.scalar a none .plain s)).map some
  | m => (read m).map some

/-- The items of a sequence. -/
def list (d : Document) (read : Node → Option α) (n : Node) : Option (List α) :=
  match d.resolve n with
  | .sequence _ _ items => items.mapM read
  | .scalar _ _ .plain s => if s.isEmpty then some [] else none
  | _ => none

/-- A variant by its name. A tag of its own names a variant, too, if nothing follows it. -/
def variant (d : Document) (all : List (String × α)) (n : Node) : Option α :=
  match d.resolve n with
  | .scalar _ tag style s =>
    match tag with
    | some (b :: rest) =>
      if b = Octets.ofAscii '!' then
        let name := if rest.isEmpty then [b] else rest
        if style = .plain && (s.isEmpty || isNull s) then (Utf8.decode? name).bind fun name => List.lookup name all else none
      else List.lookup s all
    | _ => List.lookup s all
  | _ => none

/-- The members of a mapping whose names are known, each of them once at most. All keys have to be scalars. -/
def members (d : Document) (known : List String) (n : Node) : Option (List (String × Node)) :=
  match d.resolve n with
  | .mapping _ _ entries => do
    let named ← entries.mapM fun e => (d.text e.1).map fun k => (k, e.2)
    let named := named.filter fun e => known.contains e.1
    if (named.map (·.1)).Nodup then some named else none
  | .scalar _ _ .plain s => if s.isEmpty then some [] else none
  | _ => none

/-- The value of a member, or what it is if nothing is said. -/
def member (ms : List (String × Node)) (name : String) (read : Node → Option α) (default : α) : Option α :=
  match ms.lookup name with
  | some n => read n
  | none => some default

end Document

end AuditTrail.Yaml
