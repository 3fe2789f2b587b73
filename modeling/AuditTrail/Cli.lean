import AuditTrail.Cli.Disk
import AuditTrail.Cli.Pages
import AuditTrail.Columnar.Client
import AuditTrail.Config.Derived
import AuditTrail.Config.Reading

/-!
# The commands

What each command says and what it does to the disk. A command that fails says why on the error channel, the failure first and
then its cause. Running the pipeline and creating tables need services beyond the disk and are left to the caller.
-/

namespace AuditTrail.Cli

/-- How a run of the program ends. -/
structure Outcome where
  code : Nat
  stdout : String := ""
  stderr : String := ""
  deriving DecidableEq, Repr

/-- Text of some lines, each of them ended. -/
def lines (ls : List String) : String := String.join (ls.map (· ++ "\n"))

namespace Outcome

/-- A run that says something and ends well. -/
def success (ls : List String) : Outcome := ⟨0, lines ls, ""⟩

/-- A run that ends with a failure. -/
def failure (message : String) : Outcome := ⟨1, "", lines ["Error: " ++ message]⟩

/-- A run that ends with a failure and its cause, every line of which is indented. -/
def failureOf (context : String) (cause : Error) : Outcome :=
  ⟨1, "", lines (["Error: " ++ context, "", "Caused by:"] ++ (cause.message.splitOn "\n").map ("    " ++ ·))⟩

/-- A run whose arguments are wrong. -/
def usage (e : UsageError) : Outcome := ⟨2, "", lines ["error: " ++ e.message, "", "For more information, try '--help'."]⟩

end Outcome

/-- What is left to do. -/
inductive Result where
  | finished (o : Outcome)
  /-- The pipeline has to be run. -/
  | serve (c : Config)
  /-- The tables have to be created. -/
  | createTables (c : Config)

/-- A text with blanks after it up to a width in characters. -/
def padRight (width : Nat) (s : String) : String := s ++ String.ofList (List.replicate (width - s.length) ' ')

/-- A text with blanks before it up to a width in characters. -/
def padLeft (width : Nat) (s : String) : String := String.ofList (List.replicate (width - s.length) ' ') ++ s

/-- The three columns of a listing of cursors. -/
def cursorLine (topic partition offset : String) : String :=
  padRight 30 topic ++ " " ++ padLeft 10 partition ++ " " ++ padLeft 15 offset

/-- What is said about a configuration without faults. -/
def summary (c : Config) : List String := [
  "✓ Configuration is valid",
  "",
  "Queue:",
  "  brokers:          " ++ String.intercalate ", " c.queue.brokers,
  "  row-change topic: " ++ c.queue.rowChangeTopic,
  "  marker topic:     " ++ c.queue.markerTopic,
  "  start offset:     " ++ c.queue.startOffset.title,
  "Store:",
  "  url:              " ++ c.store.url,
  "  database:         " ++ c.store.database,
  "Cursors:",
  "  " ++ c.cursor.path ++ " (namespace " ++ c.cursor.ns ++ ")",
  "Correlation:",
  "  " ++ toString c.correlator.maxAttempts.toNat ++ " attempts, " ++ toString c.correlator.retryIntervalMs.toNat ++
    "ms apart; sweep every " ++ toString c.sweeper.intervalSecs.toNat ++ "s over " ++
    toString c.sweeper.lookbackHours.toNat ++ "h"]

/-- What is said about stored cursors. -/
def listing (ns : String) (cursors : List Cursor) : List String :=
  if cursors.isEmpty then ["No cursors stored in namespace '" ++ ns ++ "'"]
  else cursorLine "TOPIC" "PARTITION" "NEXT OFFSET" ::
    cursors.map fun c => cursorLine c.topic (Json.renderInt c.partition) (Json.renderInt c.offset)

/-- What is said about a cursor that has been set. -/
def change (topic : String) (partition : Int) (previous : Option Int) (offset : Int) : String :=
  "✓ " ++ topic ++ "/" ++ Json.renderInt partition ++ ": " ++ (previous.map Json.renderInt).getD "unset" ++ " -> " ++
    Json.renderInt offset

/-- A task with the cursor file of a configuration. -/
def withCursors (d : Disk) (c : Config) (task : Disk → CursorFile → Outcome × Disk) : Outcome × Disk :=
  match (CursorFile.checkNamespace c.cursor.ns).bind fun () => d.openCursors c.cursor.path with
  | .ok (d, f) => task d f
  | .error e => (.failureOf ("Failed to open cursor store " ++ c.cursor.path) e, d)

/-- Lists the stored cursors. -/
def listCursors (d : Disk) (c : Config) : Outcome × Disk :=
  withCursors d c fun d f => (.success (listing c.cursor.ns (f.list c.cursor.ns)), d)

/-- Sets a cursor. -/
def putCursor (d : Disk) (c : Config) (topic : String) (partition offset : Int) : Outcome × Disk :=
  if offset < 0 then (.failure "offset must not be negative", d)
  else withCursors d c fun d f =>
    (.success [change topic partition (f.get c.cursor.ns topic partition) offset],
      d.write (Path.ofString c.cursor.path) (.cursors (f.put c.cursor.ns topic partition offset)))

/-- The configuration of a file. -/
def loadConfig (env : Config.Environment) (d : Disk) (path : String) : Except ConfigFault Config := do
  let text ← (d.readText path).mapError fun e => .unreadable path e.message
  Config.ofText env text

/-- Does a task with its configuration. -/
def perform (d : Disk) (c : Config) : Task → Result × Disk
  | .serve => (.serve c, d)
  | .createTables => (.createTables c, d)
  | .validate => (.finished (.success (summary c)), d)
  | .listCursors => let (o, d) := listCursors d c; (.finished o, d)
  | .setCursor topic partition offset => let (o, d) := putCursor d c topic partition offset; (.finished o, d)

/-- Runs the program with its arguments. -/
def run (env : Config.Environment) (d : Disk) (args : List String) : Result × Disk :=
  match Request.ofArguments args with
  | .error e => (.finished (.usage e), d)
  | .ok .version => (.finished (.success [version]), d)
  | .ok (.help page) => (.finished (.success page.lines), d)
  | .ok (.invoke i) =>
    match loadConfig env d i.config with
    | .error f => (.finished (.failureOf ("Failed to load config from " ++ i.config) (.config f)), d)
    | .ok c => perform d c i.task

/-- How a run ends where the columnar database may be reached and no broker of the queue can be. -/
def Result.outcome (server : Columnar.Server) : Result → Outcome
  | .finished o => o
  | .createTables c =>
    match ((Columnar.connect { c.columnarSettings with initSchema := true }).run server []).1 with
    | .ok () => .success ["✓ Schema ready in database '" ++ c.store.database ++ "'"]
    | .error e => .failureOf "Failed to initialize schema" e
  | .serve c =>
    match ((Columnar.connect c.columnarSettings).run server []).1 with
    | .ok () => .failureOf "Kafka unavailable" (.queue "connect")
    | .error e => .failureOf "ClickHouse unavailable" e

end AuditTrail.Cli
