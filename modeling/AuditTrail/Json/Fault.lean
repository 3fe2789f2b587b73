import AuditTrail.Json.Printer
import AuditTrail.Text.Quoted

/-!
# Faults of a JSON document

A document may end too early, break the grammar, or be well-formed and of the wrong shape. `Mismatch.message` words the last
kind.
-/

namespace AuditTrail.Json

/-- The kind of value that stands where another was expected. -/
inductive Found where
  | null
  | bool (b : Bool)
  | number (n : Number)
  | string (s : String)
  | sequence
  | map
  deriving DecidableEq, Repr

/-- Names the value found. -/
def Found.describe : Found → String
  | .null => "null"
  | .bool b => "boolean `" ++ (if b then "true" else "false") ++ "`"
  | .number (.int n) => "integer `" ++ renderInt n ++ "`"
  | .number (.float x) => "floating point `" ++ x.render ++ "`"
  | .string s => "string " ++ Text.quoted s
  | .sequence => "sequence"
  | .map => "map"

/-- The kind of a value. -/
def Found.ofJson : Json → Found
  | .null => .null
  | .bool b => .bool b
  | .number n => .number n
  | .string s => .string s
  | .array _ => .sequence
  | .object _ => .map

/-- Why a well-formed value has the wrong shape. -/
inductive Mismatch where
  /-- A value of another type than expected. -/
  | type (found : Found) (expected : String)
  /-- A value of the right type that is not admitted. -/
  | value (found : Found) (expected : String)
  /-- A sequence with the wrong number of elements. -/
  | length (n : Nat) (expected : String)
  | missingField (name : String)
  | duplicateField (name : String)
  | unknownVariant (name : String) (known : List String)
  /-- Seconds since the epoch beyond the calendar. -/
  | timestamp (seconds : Int)
  /-- A string that is no RFC 3339 time. -/
  | time (text : String)
  deriving DecidableEq, Repr

/-- Lists the names that were expected. -/
def oneOf (names : List String) : String :=
  match names.map fun n => "`" ++ n ++ "`" with
  | [] => "there are no variants"
  | [a] => "expected " ++ a
  | [a, b] => "expected " ++ a ++ " or " ++ b
  | all => "expected one of " ++ String.intercalate ", " all

/-- The wording of a mismatch. -/
def Mismatch.message : Mismatch → String
  | .type f e => "invalid type: " ++ f.describe ++ ", expected " ++ e
  | .value f e => "invalid value: " ++ f.describe ++ ", expected " ++ e
  | .length n e => "invalid length " ++ toString n ++ ", expected " ++ e
  | .missingField n => "missing field `" ++ n ++ "`"
  | .duplicateField n => "duplicate field `" ++ n ++ "`"
  | .unknownVariant n known => "unknown variant `" ++ n ++ "`, " ++ oneOf known
  | .timestamp s => "value is not a legal timestamp: " ++ renderInt s
  | .time t => "not an RFC 3339 time: " ++ Text.quoted t

/-- Why a document cannot be read. -/
inductive Fault where
  /-- The document ends too early. -/
  | unfinished
  /-- The document breaks the grammar, or holds a number, a string or a nesting beyond what can be kept. -/
  | malformed
  /-- The document is well-formed so far and has the wrong shape. -/
  | mismatch (m : Mismatch)
  deriving DecidableEq, Repr

/-- The wording of a fault. -/
def Fault.message : Fault → String
  | .unfinished => "the document ends too early"
  | .malformed => "the document is not well-formed"
  | .mismatch m => m.message

end AuditTrail.Json
