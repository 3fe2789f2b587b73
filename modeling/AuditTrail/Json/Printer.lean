import AuditTrail.Json.Value
import AuditTrail.Text.Utf8

/-!
# Writing JSON

Values are written without blanks. Quote, backslash and control characters below U+0020 are escaped, the usual ones by a
letter and the others by their code in lower-case hexadecimal; every other character stands for itself.
-/

namespace AuditTrail.Json

/-- How one character is written inside a string. -/
def escapeChar (c : Char) : List Char :=
  if c = '\x22' then ['\\', '\x22']
  else if c = '\\' then ['\\', '\\']
  else if c.toNat = 0x08 then ['\\', 'b']
  else if c.toNat = 0x0c then ['\\', 'f']
  else if c = '\n' then ['\\', 'n']
  else if c = '\r' then ['\\', 'r']
  else if c = '\t' then ['\\', 't']
  else if c.toNat < 0x20 then ['\\', 'u', '0', '0', Nat.digitChar (c.toNat / 16), Nat.digitChar (c.toNat % 16)]
  else [c]

/-- A string with its quotes. -/
def renderString (s : String) : String :=
  String.ofList ('\x22' :: (s.toList.flatMap escapeChar ++ ['\x22']))

/-- A whole number in decimal. -/
def renderInt (n : Int) : String := if n < 0 then "-" ++ toString n.natAbs else toString n.natAbs

/-- A number: whole numbers in decimal, others as their shortest decimal. -/
def Number.render : Number → String
  | .int n => renderInt n
  | .float x => x.render

mutual

/-- The text of a value. -/
def render : Json → String
  | .null => "null"
  | .bool b => if b then "true" else "false"
  | .number n => n.render
  | .string s => renderString s
  | .array [] => "[]"
  | .array (x :: xs) => "[" ++ render x ++ renderItems xs ++ "]"
  | .object [] => "\x7b\x7d"
  | .object ((k, v) :: ms) => "\x7b" ++ renderString k ++ ":" ++ render v ++ renderMembers ms ++ "\x7d"

/-- The items after the first, each after a comma. -/
def renderItems : List Json → String
  | [] => ""
  | x :: xs => "," ++ render x ++ renderItems xs

/-- The members after the first, each after a comma. -/
def renderMembers : List (String × Json) → String
  | [] => ""
  | (k, v) :: ms => "," ++ renderString k ++ ":" ++ render v ++ renderMembers ms

end

/-- An object whose members are already written, in the order given. -/
def renderFields (fields : List (String × String)) : String :=
  "\x7b" ++ String.intercalate "," (fields.map fun f => renderString f.1 ++ ":" ++ f.2) ++ "\x7d"

/-- An array whose items are already written. -/
def renderArray (items : List String) : String := "[" ++ String.intercalate "," items ++ "]"

end AuditTrail.Json
