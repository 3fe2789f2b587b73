import AuditTrail.Error
import AuditTrail.Json.Printer

/-!
# Cursors

A cursor is the offset of the next message to read in a partition of a topic. Cursors are kept in memory under topic and
partition, or in a file under one key made of both; a file holds one table of cursors for each namespace.
-/

namespace AuditTrail

/-- A stored position. -/
structure Cursor where
  topic : String
  partition : Int
  offset : Int
  deriving DecidableEq, Repr

namespace Cursor

/-- The order of a listing: by topic, then by partition. -/
def le (a b : Cursor) : Bool := a.topic < b.topic || (a.topic == b.topic && a.partition ≤ b.partition)

/-- The key of a partition in a file. -/
def key (topic : String) (partition : Int) : String := topic ++ "-" ++ Json.renderInt partition

/-- A number without a plus sign that may be before it. -/
def unsigned : List Char → List Char
  | '+' :: ds => ds
  | ds => ds

/-- A topic and a partition that a key may stand for: what precedes the last hyphen, and the number after it. -/
def ofKey? (key : String) : Option (String × Int) :=
  let cs := key.toList.reverse
  let ds := unsigned (cs.takeWhile (· ≠ '-')).reverse
  match cs.dropWhile (· ≠ '-') with
  | _ :: topic =>
    let n := ds.foldl (fun n c => n * 10 + (c.toNat - '0'.toNat)) 0
    if ds.isEmpty || !ds.all Char.isDigit || 0x7fffffff < n then none else some (String.ofList topic.reverse, n)
  | [] => none

end Cursor

/-- A table of offsets, sorted by its keys. -/
abbrev CursorTable := List (String × Int)

/-- The content of a cursor file: a table for each namespace. -/
abbrev CursorFile := List (String × CursorTable)

namespace CursorFile

/-- Sets an entry in a sorted table; an earlier one of the key is replaced. -/
def setEntry (k : String) (n : Int) : CursorTable → CursorTable
  | [] => [(k, n)]
  | (l, m) :: rest =>
    if k < l then (k, n) :: (l, m) :: rest else if k = l then (k, n) :: rest else (l, m) :: setEntry k n rest

/-- The table of a namespace. -/
def table (f : CursorFile) (ns : String) : CursorTable := (f.lookup ns).getD []

/-- The stored offset of a partition. -/
def get (f : CursorFile) (ns topic : String) (partition : Int) : Option Int :=
  (f.table ns).lookup (Cursor.key topic partition)

/-- The file with the offset of a partition set. -/
def put (f : CursorFile) (ns topic : String) (partition offset : Int) : CursorFile :=
  match f with
  | [] => [(ns, setEntry (Cursor.key topic partition) offset [])]
  | (n, t) :: rest =>
    if n = ns then (n, setEntry (Cursor.key topic partition) offset t) :: rest
    else (n, t) :: put rest ns topic partition offset

/-- The cursors of a namespace in the order of a listing. -/
def list (f : CursorFile) (ns : String) : List Cursor :=
  ((f.table ns).filterMap fun e => (Cursor.ofKey? e.1).map fun k => ⟨k.1, k.2, e.2⟩).mergeSort Cursor.le

/-- The namespace under which a file may be opened. -/
def checkNamespace (ns : String) : Except Error Unit :=
  if ns.isEmpty then .error (.config (.other "cursor namespace must not be empty")) else .ok ()

end CursorFile

/-- Where cursors are kept. -/
inductive CursorBacking where
  /-- In memory, one entry for each topic and partition. -/
  | memory (entries : List Cursor)
  /-- In a file, under a namespace. -/
  | file (ns : String) (content : CursorFile)
  deriving DecidableEq, Repr

/-- Cursors, and whether reading and writing them is made to fail. -/
structure Cursors where
  backing : CursorBacking := .memory []
  failGets : Bool := false
  failPuts : Bool := false
  deriving DecidableEq, Repr

namespace Cursors

/-- Sets a cursor among those of other partitions. -/
def setCursor (topic : String) (partition offset : Int) : List Cursor → List Cursor
  | [] => [⟨topic, partition, offset⟩]
  | c :: rest =>
    if c.topic = topic ∧ c.partition = partition then ⟨topic, partition, offset⟩ :: rest
    else c :: setCursor topic partition offset rest

/-- The stored offset of a partition. -/
def stored (c : Cursors) (topic : String) (partition : Int) : Option Int :=
  match c.backing with
  | .memory entries => (entries.find? fun e => e.topic == topic && e.partition == partition).map (·.offset)
  | .file ns content => content.get ns topic partition

/-- The cursors with the offset of a partition set. -/
def set (c : Cursors) (topic : String) (partition offset : Int) : Cursors :=
  { c with backing := match c.backing with
    | .memory entries => .memory (setCursor topic partition offset entries)
    | .file ns content => .file ns (content.put ns topic partition offset) }

/-- Reads the offset of a partition. -/
def get (c : Cursors) (topic : String) (partition : Int) : Except Error (Option Int) :=
  if c.failGets then .error (.cursor "injected get failure") else .ok (c.stored topic partition)

/-- Writes the offset of a partition. -/
def put (c : Cursors) (topic : String) (partition offset : Int) : Except Error Cursors :=
  if c.failPuts then .error (.cursor "injected put failure") else .ok (c.set topic partition offset)

/-- All cursors in the order of a listing. -/
def list (c : Cursors) : List Cursor :=
  match c.backing with
  | .memory entries => entries.mergeSort Cursor.le
  | .file ns content => content.list ns

/-- The same cursor file under another namespace; cursors in memory stay as they are. -/
def reopen (c : Cursors) (ns : String) : Except Error Cursors :=
  match c.backing with
  | .memory _ => .ok c
  | .file _ content => do
    CursorFile.checkNamespace ns
    .ok { c with backing := .file ns content }

end Cursors

end AuditTrail
