import AuditTrail.Cursors
import AuditTrail.Json.Reader

/-!
# The text of a cursor file

A cursor file is written as an object with a member for each namespace, whose value has a member for each key.
-/

namespace AuditTrail.CursorFile

/-- A cursor file as a value. -/
def toJson (f : CursorFile) : Json := .ofMembers (f.map fun t => (t.1, .ofMembers (t.2.map fun e => (e.1, .ofInt e.2))))

/-- The table of some members, whose values are whole numbers. -/
def tableOf? (ms : List (String × Json)) : Option CursorTable :=
  ms.mapM fun m => match m.2 with
    | .number (.int n) => some (m.1, n)
    | _ => none

/-- The cursor file of a value. -/
def ofJson? : Json → Option CursorFile
  | .object ms => ms.mapM fun m => match m.2 with
    | .object es => (tableOf? es).map fun t => (m.1, t)
    | _ => none
  | _ => none

/-- The text of a cursor file. -/
def render (f : CursorFile) : String := f.toJson.render

/-- The cursor file of a text. -/
def ofText? (s : String) : Option CursorFile := (Json.ofText s).toOption.bind ofJson?

end AuditTrail.CursorFile
