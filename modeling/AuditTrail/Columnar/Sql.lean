import AuditTrail.Json.Printer

/-!
# Statements

A statement is a template whose marks are filled in. A question mark stands for an argument, `?fields` for the names of the
columns, and two question marks for one.
-/

namespace AuditTrail.Columnar

/-- A value in a statement. -/
inductive Argument where
  | int (n : Int)
  | string (s : String)
  | strings (ss : List String)
  deriving DecidableEq, Repr

/-- A text between quotes. The quotes, a backslash, a tabulator and a line feed are written after a backslash. -/
def quoted (quote : Char) (s : String) : String :=
  let escape (c : Char) : List Char := if ['\\', '\x27', '\x60', '\t', '\n'].contains c then ['\\', c] else [c]
  String.ofList (quote :: (s.toList.flatMap escape ++ [quote]))

/-- The text of an argument. -/
def Argument.render : Argument → String
  | .int n => Json.renderInt n
  | .string s => quoted '\x27' s
  | .strings ss => "[" ++ String.intercalate "," (ss.map (quoted '\x27')) ++ "]"

/-- The names of some columns. -/
def columnList (columns : List String) : String := String.intercalate "," (columns.map (quoted '\x60'))

/-- A part of a template. -/
inductive Mark where
  | char (c : Char)
  | argument
  | fields
  deriving DecidableEq, Repr

/-- The parts of a template. -/
def Mark.ofChars : List Char → List Mark
  | [] => []
  | '?' :: '?' :: rest => .char '?' :: Mark.ofChars rest
  | '?' :: 'f' :: 'i' :: 'e' :: 'l' :: 'd' :: 's' :: rest => .fields :: Mark.ofChars rest
  | '?' :: rest => .argument :: Mark.ofChars rest
  | c :: rest => .char c :: Mark.ofChars rest

/-- The characters of a template filled in; every argument has to have a place and every place an argument. -/
def fillMarks (columns : List String) : List Mark → List Argument → Option (List Char)
  | [], [] => some []
  | [], _ :: _ => none
  | .char c :: rest, args => (fillMarks columns rest args).map (c :: ·)
  | .fields :: rest, args => (fillMarks columns rest args).map ((columnList columns).toList ++ ·)
  | .argument :: _, [] => none
  | .argument :: rest, a :: args => (fillMarks columns rest args).map (a.render.toList ++ ·)

/-- The character that a part of a template stands for, if there is nothing to fill in. -/
def Mark.char? : Mark → Option Char
  | .char c => some c
  | .argument | .fields => none

/-- A template that has no places to fill in. -/
def plain (template : String) : Option String := ((Mark.ofChars template.toList).mapM Mark.char?).map String.ofList

/-- A template filled in. -/
def fill (template : String) (columns : List String) (args : List Argument) : Option String :=
  (fillMarks columns (Mark.ofChars template.toList) args).map String.ofList

end AuditTrail.Columnar
