import AuditTrail.Cli
import AuditTrail.Cursors.Text

/-!
# The program

Reads the files and variables that the arguments and the configuration name, runs the command on them, writes the cursor file back
and prints what the command says.
-/

namespace AuditTrail

/-- The text of a file, if it can be read. -/
def fileText? (path : String) : IO (Option String) := do
  try return some (← IO.FS.readFile path) catch _ => return none

/-- The variables that a text refers to and that are set. -/
def setVariables (text : String) : IO (List (String × String)) := do
  let names := (Config.pieces text).filterMap fun p => match p with
    | .reference r => some r.name
    | .char _ => none
  let set ← names.mapM fun name => return (← IO.getEnv name).map fun v => (name, v)
  return set.filterMap id

/-- The directories above a path, the outermost first. -/
def ancestors (path : String) : List String :=
  let names := (path.splitOn "/").dropLast
  (List.range names.length).map fun n => String.intercalate "/" (names.take (n + 1))

/-- Makes the directories above a path. -/
def makeDirectories (path : String) : IO Unit := do
  for d in ancestors path do
    try IO.FS.createDir d catch _ => pure ()

/-- Runs the program. Neither the queue nor the columnar database can be reached from it. -/
def program (args : List String) : IO UInt32 := do
  let configPath := match Cli.Request.ofArguments args with
    | .ok (.invoke i) => i.config
    | _ => ""
  let text ← fileText? configPath
  let vars ← setVariables (text.getD "")
  let env : Config.Environment := fun name => vars.lookup name
  let disk : Cli.Disk := text.toList.map fun t => (Cli.Path.ofString configPath, .text t)
  let cursorPath := match Cli.loadConfig env disk configPath with
    | .ok c => c.cursor.path
    | .error _ => ""
  let cursorText ← fileText? cursorPath
  let cursors := cursorText.map fun t => ((CursorFile.ofText? t).map Cli.Content.cursors).getD (.text t)
  let disk := match cursors with
    | some c => disk.write (Cli.Path.ofString cursorPath) c
    | none => disk
  let (result, after) := Cli.run env disk args
  let written := after.file? (Cli.Path.ofString cursorPath)
  if written ≠ cursors then
    match written with
    | some (.cursors f) => do
      makeDirectories cursorPath
      IO.FS.writeFile cursorPath f.render
    | _ => pure ()
  let o := result.outcome .unreachable
  (← IO.getStdout).putStr o.stdout
  (← IO.getStderr).putStr o.stderr
  return o.code.toUInt32

end AuditTrail

/-- The entry of the program. -/
def main (args : List String) : IO UInt32 := AuditTrail.program args
