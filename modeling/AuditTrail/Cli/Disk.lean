import AuditTrail.Cursors

/-!
# The disk

The files that the commands work on. A file holds a text or a table of cursors for each namespace. A directory is there if a file
is below it.
-/

namespace AuditTrail.Cli

/-- Why a file cannot be used. -/
inductive SystemError where
  | missing
  | exists
  | notDirectory
  | isDirectory
  | notText
  | notCursors
  deriving DecidableEq, Repr

/-- The wording of the system. -/
def SystemError.message : SystemError → String
  | .missing => "No such file or directory (os error 2)"
  | .exists => "File exists (os error 17)"
  | .notDirectory => "Not a directory (os error 20)"
  | .isDirectory => "Is a directory (os error 21)"
  | .notText => "stream did not contain valid UTF-8"
  | .notCursors => "invalid data"

/-- A path: whether it starts at the root, its names, and whether it says that it is a directory. -/
structure Path where
  fromRoot : Bool
  names : List String
  isDirectory : Bool
  deriving DecidableEq, Repr

namespace Path

/-- The names between slashes, from front to back; those that say nothing are left out. -/
def split (cs : List Char) : List String :=
  let step (c : Char) (acc : List Char × List (List Char)) : List Char × List (List Char) :=
    if c = '/' then ([], acc.1 :: acc.2) else (c :: acc.1, acc.2)
  let (first, rest) := cs.foldr step ([], [])
  ((first :: rest).map String.ofList).filter fun name => name ≠ "" && name ≠ "."

/-- The path of a text. -/
def ofString (s : String) : Path := ⟨s.toList.head? == some '/', split s.toList, s.toList.getLast? == some '/'⟩

/-- The text of the directory that a path is in. -/
def parent (s : String) : String :=
  let slash (c : Char) : Bool := c = '/'
  let cs := (((s.toList.reverse.dropWhile slash).dropWhile fun c => !slash c).dropWhile slash).reverse
  if cs.isEmpty && s.toList.head? == some '/' then "/" else String.ofList cs

end Path

/-- What a file holds. -/
inductive Content where
  | text (s : String)
  | cursors (f : CursorFile)
  deriving DecidableEq, Repr

/-- The files of the disk under their paths. -/
abbrev Disk := List (Path × Content)

namespace Disk

/-- The content of the file at a path. -/
def file? (d : Disk) (p : Path) : Option Content :=
  (d.find? fun e => e.1.fromRoot == p.fromRoot && e.1.names == p.names).map (·.2)

/-- Whether a directory is at a path. -/
def hasDirectory (d : Disk) (p : Path) : Bool :=
  p.names.isEmpty || d.any fun e => e.1.fromRoot == p.fromRoot && p.names.isPrefixOf e.1.names && e.1.names != p.names

/-- Whether a file stands where a path needs a directory. -/
def isBlocked (d : Disk) (p : Path) : Bool :=
  d.any fun e => e.1.fromRoot == p.fromRoot && e.1.names.isPrefixOf p.names && (e.1.names != p.names || p.isDirectory)

/-- Why there is no file at a path. -/
def absence (d : Disk) (p : Path) : SystemError :=
  if d.hasDirectory p then .isDirectory else if d.isBlocked p then .notDirectory else .missing

/-- The text of the file at a path. -/
def readText (d : Disk) (path : String) : Except SystemError String :=
  let p := Path.ofString path
  if path.isEmpty then .error .missing
  else if d.isBlocked p then .error .notDirectory
  else match d.file? p with
    | some (.text s) => .ok s
    | some (.cursors _) => .error .notText
    | none => .error (d.absence p)

/-- The disk with a file at a path. -/
def write (d : Disk) (p : Path) (c : Content) : Disk :=
  match d with
  | [] => [(p, c)]
  | e :: rest =>
    if e.1.fromRoot = p.fromRoot ∧ e.1.names = p.names then (e.1, c) :: rest else e :: write rest p c

/-- The directories above a path are made where they are missing, unless a file is in the way. -/
def makeDirectory (d : Disk) (path : String) : Except SystemError Unit :=
  let p := Path.ofString path
  if path.isEmpty || d.hasDirectory p then .ok ()
  else if (d.file? p).isSome then .error .exists
  else if d.isBlocked p then .error .notDirectory
  else .ok ()

/-- The cursor file at a path; a missing or an empty file is one without cursors. -/
def openCursors (d : Disk) (path : String) : Except Error (Disk × CursorFile) := do
  let parent := Path.parent path
  (d.makeDirectory parent).mapError fun e => .cursor ("Failed to create dir " ++ parent ++ ": " ++ e.message)
  let p := Path.ofString path
  let failed (e : SystemError) : Except Error (Disk × CursorFile) :=
    .error (.cursor ("Failed to open redb: I/O error: " ++ e.message))
  if path.isEmpty then failed .missing
  else if d.isBlocked p then failed .notDirectory
  else match d.file? p with
    | some (.cursors f) => .ok (d, f)
    | some (.text s) => if s.isEmpty then .ok (d.write p (.cursors []), []) else failed .notCursors
    | none => if p.isDirectory || d.hasDirectory p then failed .isDirectory else .ok (d.write p (.cursors []), [])

end Disk

end AuditTrail.Cli
