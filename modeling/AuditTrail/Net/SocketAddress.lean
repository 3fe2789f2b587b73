import AuditTrail.Text.Utf8

/-!
# Socket addresses

An address of a host and a port. A host of version 4 is four decimal octets; one of version 6 stands in brackets, as eight groups
of hexadecimal digits of which one run of zeros may be left out, with an optional number of its scope. `render` writes an address
in its shortest form.
-/

namespace AuditTrail.Net

/-- The address of a host and a port. -/
inductive SocketAddress where
  | v4 (octets : List Nat) (port : Nat)
  | v6 (groups : List Nat) (scope port : Nat)
  deriving DecidableEq, Repr

/-- A reader of characters. -/
abbrev Scan (α : Type) := List Char → Option (α × List Char)

/-- The given character. -/
def given (c : Char) : Scan Unit
  | d :: rest => if d = c then some ((), rest) else none
  | [] => none

/-- The value of a digit in a base. -/
def digit? (base : Nat) (c : Char) : Option Nat := do
  let d ← if c.toNat < 0x80 then Octets.hexDigit? (Octets.ofAscii c) else none
  if d < base then some d else none

/-- A number in a base of at most `most` digits, no greater than `greatest`. -/
def number (base most greatest : Nat) (leadingZeros : Bool) : Scan Nat := fun cs =>
  let ds := cs.takeWhile fun c => (digit? base c).isSome
  let n := ds.foldl (fun n c => n * base + (digit? base c).getD 0) 0
  if ds.isEmpty || most < ds.length || greatest < n || (!leadingZeros && ds.length > 1 && ds.head? == some '0') then none
  else some (n, cs.drop ds.length)

/-- One octet of a host of version 4. -/
def octet : Scan Nat := number 10 3 255 false

/-- A host of version 4. -/
def host4 : Scan (List Nat) := fun cs => do
  let (a, cs) ← octet cs
  let ((), cs) ← given '.' cs
  let (b, cs) ← octet cs
  let ((), cs) ← given '.' cs
  let (c, cs) ← octet cs
  let ((), cs) ← given '.' cs
  let (d, cs) ← octet cs
  some ([a, b, c, d], cs)

/-- A port after its colon. Leading zeros do not matter. -/
def port : Scan Nat := fun cs => do
  let ((), cs) ← given ':' cs
  number 10 cs.length 65535 true cs

/-- What follows a colon, which is left out at the start. -/
def separated (first : Bool) (scan : Scan α) : Scan α := fun cs =>
  if first then scan cs else do
    let ((), cs) ← given ':' cs
    scan cs

/-- At most `limit` groups of a host of version 6. The last two may be written as a host of version 4; the second component says
whether they are. -/
def groups : (limit : Nat) → (first : Bool) → List Char → List Nat × Bool × List Char
  | 0, _, cs => ([], false, cs)
  | limit + 1, first, cs =>
    match (if 1 ≤ limit then separated first host4 cs else none) with
    | some ([a, b, c, d], cs) => ([a * 256 + b, c * 256 + d], true, cs)
    | _ =>
      match separated first (number 16 4 0xffff true) cs with
      | some (g, cs) => let (gs, r) := groups limit false cs; (g :: gs, r)
      | none => ([], false, cs)

/-- A host of version 6. -/
def host6 : Scan (List Nat) := fun cs =>
  let (head, dotted, rest) := groups 8 true cs
  if head.length = 8 then some (head, rest)
  else if dotted then none
  else do
    let ((), rest) ← given ':' rest
    let ((), rest) ← given ':' rest
    let (tail, _, rest) := groups (8 - (head.length + 1)) true rest
    some (head ++ List.replicate (8 - head.length - tail.length) 0 ++ tail, rest)

/-- The number of a scope after its percent sign, zero if there is none. -/
def scope (cs : List Char) : Nat × List Char :=
  match given '%' cs with
  | some ((), rest) => (number 10 rest.length (UInt32.size - 1) true rest).getD (0, cs)
  | none => (0, cs)

namespace SocketAddress

/-- Reads an address of version 4. -/
def parse4? (cs : List Char) : Option SocketAddress := do
  let (h, cs) ← host4 cs
  let (p, cs) ← port cs
  if cs.isEmpty then some (.v4 h p) else none

/-- Reads an address of version 6. -/
def parse6? (cs : List Char) : Option SocketAddress := do
  let ((), cs) ← given '[' cs
  let (h, cs) ← host6 cs
  let (s, cs) := scope cs
  let ((), cs) ← given ']' cs
  let (p, cs) ← port cs
  if cs.isEmpty then some (.v6 h s p) else none

/-- Reads an address. -/
def parse? (s : String) : Option SocketAddress := (parse4? s.toList).orElse fun _ => parse6? s.toList

/-- The start and the length of the first longest run of zeros. -/
def longestZeros : (start : Nat) → List Nat → Nat × Nat
  | _, [] => (0, 0)
  | i, g :: gs =>
    let run := ((g :: gs).takeWhile (· = 0)).length
    let (j, later) := longestZeros (i + 1) gs
    if later ≤ run ∧ 0 < run then (i, run) else (j, later)

/-- A number in lower-case hexadecimal. -/
def hex (n : Nat) : String := String.ofList (Nat.toDigits 16 n)

/-- Groups between colons. -/
def renderGroups (gs : List Nat) : String := String.intercalate ":" (gs.map hex)

/-- Octets between points. -/
def renderOctets (os : List Nat) : String := String.intercalate "." (os.map toString)

/-- A host of version 6 in its shortest form. One that stands for a host of version 4 ends like it. -/
def renderHost6 (gs : List Nat) : String :=
  match gs with
  | [0, 0, 0, 0, 0, 0xffff, a, b] => "::ffff:" ++ renderOctets [a / 256, a % 256, b / 256, b % 256]
  | _ =>
    let (i, n) := longestZeros 0 gs
    if 1 < n then renderGroups (gs.take i) ++ "::" ++ renderGroups (gs.drop (i + n)) else renderGroups gs

/-- The text of an address. -/
def render : SocketAddress → String
  | .v4 os p => renderOctets os ++ ":" ++ toString p
  | .v6 gs s p => "[" ++ renderHost6 gs ++ (if s = 0 then "" else "%" ++ toString s) ++ "]:" ++ toString p

end SocketAddress

end AuditTrail.Net
