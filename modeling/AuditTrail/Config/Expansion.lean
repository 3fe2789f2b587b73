/-!
# References to the environment

A reference is a dollar sign and, in braces, a name with an optional default after a colon and a hyphen. It stands for the value
of the variable of that name, for its default if the variable is not set, and for nothing if it has no default. Whatever is not a
complete reference stands for itself, and what a reference stands for is not looked at again.
-/

namespace AuditTrail.Config

/-- The environment: the value of every variable that is set. -/
abbrev Environment := String → Option String

/-- A reference to a variable. -/
structure Reference where
  name : String
  default : Option String
  deriving DecidableEq, Repr

/-- A part of a text with references. -/
inductive Piece where
  | char (c : Char)
  | reference (r : Reference)
  deriving DecidableEq, Repr

namespace Reference

/-- Whether a name may start with the character. -/
def isNameStart (c : Char) : Bool := c.isAlpha || c = '_'

/-- Whether a name may go on with the character. -/
def isNameChar (c : Char) : Bool := c.isAlphanum || c = '_'

/-- Reads a name. -/
def readName (cs : List Char) : Option (String × List Char) :=
  match cs with
  | c :: rest =>
    if isNameStart c then some (String.ofList (c :: rest.takeWhile isNameChar), rest.dropWhile isNameChar) else none
  | [] => none

/-- Reads a reference from the front of a text. -/
def read (cs : List Char) : Option (Reference × List Char) :=
  match cs with
  | '$' :: '\x7b' :: rest => do
    let (name, rest) ← readName rest
    match rest with
    | '\x7d' :: rest => some (⟨name, none⟩, rest)
    | ':' :: '-' :: rest =>
      match rest.dropWhile (· ≠ '\x7d') with
      | _ :: after => some (⟨name, some (String.ofList (rest.takeWhile (· ≠ '\x7d')))⟩, after)
      | [] => none
    | _ => none
  | _ => none

/-- What a reference stands for. -/
def value (env : Environment) (r : Reference) : String := (env r.name).getD (r.default.getD "")

end Reference

namespace Piece

/-- The pieces of a text, read from left to right; `fuel` is at least its length. -/
def split : (fuel : Nat) → List Char → List Piece
  | 0, _ => []
  | _ + 1, [] => []
  | fuel + 1, c :: rest =>
    match Reference.read (c :: rest) with
    | some (r, after) => .reference r :: split fuel after
    | none => .char c :: split fuel rest

/-- What a piece stands for. -/
def value (env : Environment) : Piece → List Char
  | .char c => [c]
  | .reference r => (r.value env).toList

end Piece

/-- The pieces of a text. -/
def pieces (s : String) : List Piece := Piece.split s.toList.length s.toList

/-- The text with every reference replaced by what it stands for. -/
def expand (env : Environment) (s : String) : String := String.ofList ((pieces s).flatMap (Piece.value env))

end AuditTrail.Config
