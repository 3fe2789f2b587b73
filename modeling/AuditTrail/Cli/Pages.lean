import AuditTrail.Cli.Arguments

/-!
# Pages of help

The text of every page of help, line by line.
-/

namespace AuditTrail.Cli

/-- The name and version of the program. -/
def version : String := "rivven-audit 0.1.0"

/-- What a page is about. -/
def Page.about : Page → String
  | .program => "Transaction audit correlation for CDC streams"
  | .run => "Run the correlation pipeline (default)"
  | .validate => "Validate configuration file"
  | .initSchema => "Create the ClickHouse database and tables, then exit"
  | .cursors => "List stored consumer cursors"
  | .setCursor => "Overwrite the next offset for one partition"
  | .help => "Print this message or the help of the given subcommand(s)"

/-- What may follow the name of the program. -/
def Page.usage : Page → String
  | .program => "[OPTIONS] [COMMAND]"
  | .run => "run"
  | .validate => "validate"
  | .initSchema => "init-schema"
  | .cursors => "cursors"
  | .setCursor => "set-cursor <TOPIC> <PARTITION> <OFFSET>"
  | .help => "help [COMMAND]..."

/-- The lines of a page after its usage. -/
def Page.details : Page → List String
  | .program => [
      "Commands:",
      "  run          " ++ Page.about .run,
      "  validate     " ++ Page.about .validate,
      "  init-schema  " ++ Page.about .initSchema,
      "  cursors      " ++ Page.about .cursors,
      "  set-cursor   " ++ Page.about .setCursor,
      "  help         " ++ Page.about .help,
      "",
      "Options:",
      "  -c, --config <CONFIG>  Path to configuration file [default: audit.yaml]",
      "  -v, --verbose          Enable verbose logging",
      "  -h, --help             Print help",
      "  -V, --version          Print version"]
  | .setCursor => [
      "Arguments:",
      "  <TOPIC>      ",
      "  <PARTITION>  ",
      "  <OFFSET>     Next offset to read",
      "",
      "Options:",
      "  -h, --help  Print help"]
  | .help => ["Arguments:", "  [COMMAND]...  Print help for the subcommand(s)"]
  | _ => ["Options:", "  -h, --help  Print help"]

/-- The lines of a page. -/
def Page.lines (p : Page) : List String :=
  [p.about, "", "Usage: rivven-audit " ++ p.usage, ""] ++ p.details

end AuditTrail.Cli
