/-!
# Arguments

What the program is asked to do. Options come before the command; after a double hyphen nothing is an option. Arguments are read
from left to right, and the first request for help or for the version, or the first mistake, decides.
-/

namespace AuditTrail.Cli

/-- What the program does with its configuration. -/
inductive Task where
  /-- Run the pipeline. -/
  | serve
  | validate
  | createTables
  | listCursors
  | setCursor (topic : String) (partition offset : Int)
  deriving DecidableEq, Repr

/-- A task, and how it is to be done. -/
structure Invocation where
  config : String
  verbose : Bool
  task : Task
  deriving DecidableEq, Repr

/-- The pages of help: one for the program, and one for each command. -/
inductive Page where
  | program
  | run
  | validate
  | initSchema
  | cursors
  | setCursor
  | help
  deriving DecidableEq, Repr

/-- What the arguments ask for. -/
inductive Request where
  | version
  | help (page : Page)
  | invoke (i : Invocation)
  deriving DecidableEq, Repr

/-- What is wrong with the arguments. -/
inductive UsageError where
  | unexpected (argument : String)
  | unknownCommand (name : String)
  | missingValue (option : String)
  | unwantedValue (option value : String)
  | repeated (option : String)
  | invalidValue (argument value : String)
  | missingArguments (names : List String)
  deriving DecidableEq, Repr

/-- The wording of a mistake. -/
def UsageError.message : UsageError → String
  | .unexpected a => "unexpected argument '" ++ a ++ "' found"
  | .unknownCommand n => "unrecognized subcommand '" ++ n ++ "'"
  | .missingValue o => "a value is required for '" ++ o ++ "' but none was supplied"
  | .unwantedValue o v => "unexpected value '" ++ v ++ "' for '" ++ o ++ "' found; no more were expected"
  | .repeated o => "the argument '" ++ o ++ "' cannot be used multiple times"
  | .invalidValue a v => "invalid value '" ++ v ++ "' for '" ++ a ++ "'"
  | .missingArguments ns => "the following required arguments were not provided:" ++ String.join (ns.map ("\n  " ++ ·))

/-- The whole number between two bounds that a text says. A sign and leading zeros may be there. -/
def int? (lo hi : Int) (s : String) : Option Int :=
  let value (cs : List Char) : Option Int :=
    if cs.isEmpty || !cs.all Char.isDigit then none
    else some (cs.foldl (fun n c => n * 10 + (c.toNat - '0'.toNat : Nat)) (0 : Int))
  let n := match s.toList with
    | '-' :: cs => (value cs).map fun n => -n
    | '+' :: cs => value cs
    | cs => value cs
  n.filter fun n => lo ≤ n && n ≤ hi

/-- A partition. -/
def partition? : String → Option Int := int? (-0x80000000) 0x7fffffff

/-- An offset. -/
def offset? : String → Option Int := int? (-0x8000000000000000) 0x7fffffffffffffff

/-- Whether an argument looks like an option. A lone hyphen does not. -/
def looksLikeOption (a : String) : Bool := a.toList.head? == some '-' && a ≠ "-"

/-! ## The arguments of a command -/

/-- The operands of a command, each of which has to pass its check, or the page of help that is asked for first. -/
def operands (page : Page) : (checks : List (String → Except UsageError Unit)) → (escaped : Bool) → List String →
    Except UsageError (List String ⊕ Page)
  | _, _, [] => .ok (.inl [])
  | checks, escaped, a :: rest =>
    if !escaped && a = "--" then operands page checks true rest
    else if !escaped && looksLikeOption a then
      if a = "--help" || a.toList.take 2 = ['-', 'h'] then .ok (.inr page) else .error (.unexpected a)
    else match checks with
      | [] => .error (.unexpected a)
      | check :: checks => do
        check a
        match ← operands page checks escaped rest with
        | .inl vs => .ok (.inl (a :: vs))
        | .inr p => .ok (.inr p)

/-- A check that a value can be read. -/
def readable (argument : String) (read : String → Option Int) (s : String) : Except UsageError Unit :=
  if (read s).isSome then .ok () else .error (.invalidValue argument s)

/-- The task of a command without operands. -/
def bare (page : Page) (task : Task) (args : List String) : Except UsageError (Task ⊕ Page) := do
  match ← operands page [] false args with
  | .inl _ => .ok (.inl task)
  | .inr p => .ok (.inr p)

/-- The task that sets a cursor. -/
def setCursor (args : List String) : Except UsageError (Task ⊕ Page) := do
  let checks := [fun _ => .ok (), readable "<PARTITION>" partition?, readable "<OFFSET>" offset?]
  match ← operands .setCursor checks false args with
  | .inr p => .ok (.inr p)
  | .inl vs =>
    match vs with
    | [topic, partition, offset] => .ok (.inl (.setCursor topic ((partition? partition).getD 0) ((offset? offset).getD 0)))
    | _ => .error (.missingArguments (["<TOPIC>", "<PARTITION>", "<OFFSET>"].drop vs.length))

/-- The page of a command. -/
def Page.ofCommand? : String → Option Page
  | "run" => some .run
  | "validate" => some .validate
  | "init-schema" => some .initSchema
  | "cursors" => some .cursors
  | "set-cursor" => some .setCursor
  | "help" => some .help
  | _ => none

/-- The page that the help command is asked for. -/
def helpPage : List String → Except UsageError Page
  | [] => .ok .program
  | name :: rest =>
    match Page.ofCommand? name, rest with
    | none, _ => .error (.unknownCommand name)
    | some p, [] => .ok p
    | some _, extra :: _ => .error (.unknownCommand extra)

/-- What a command with its arguments asks for. -/
def command (page : Page) (args : List String) : Except UsageError (Task ⊕ Page) :=
  match page with
  | .program | .help => (helpPage args).map .inr
  | .run => bare page .serve args
  | .validate => bare page .validate args
  | .initSchema => bare page .createTables args
  | .cursors => bare page .listCursors args
  | .setCursor => setCursor args

/-! ## Options of the program -/

/-- The options as far as they are read. -/
structure Options where
  config : Option String := none
  verbose : Bool := false
  /-- The value of the configuration option if it still waits for it, or for its check. -/
  waiting : Option (Option String) := none
  deriving DecidableEq, Repr

namespace Options

/-- The options with a waiting value checked. -/
def settle (o : Options) : Except UsageError Options :=
  match o.waiting with
  | none => .ok o
  | some none => .error (.missingValue "--config <CONFIG>")
  | some (some v) =>
    if v.isEmpty then .error (.missingValue "--config <CONFIG>")
    else if o.config.isSome then .error (.repeated "--config <CONFIG>")
    else .ok { o with config := some v, waiting := none }

/-- The options with a configuration whose value is attached or follows. -/
def withConfig (o : Options) (attached : Option String) : Except UsageError Options := do
  let o ← o.settle
  match attached with
  | some v => Options.settle { o with waiting := some (some v) }
  | none => .ok { o with waiting := some none }

/-- The options with more to be said. -/
def withVerbose (o : Options) : Except UsageError Options := do
  let o ← o.settle
  if o.verbose then .error (.repeated "--verbose") else .ok { o with verbose := true }

/-- The options after one with a long name, or what it asks for. -/
def long (o : Options) (name : String) (value : Option String) : Except UsageError (Options ⊕ Request) :=
  match name, value with
  | "config", v => (o.withConfig v).map .inl
  | "verbose", none => o.withVerbose.map .inl
  | "help", none => o.settle.map fun _ => .inr (.help .program)
  | "version", none => o.settle.map fun _ => .inr .version
  | _, some v =>
    if ["verbose", "help", "version"].contains name then .error (.unwantedValue ("--" ++ name) v)
    else .error (.unexpected ("--" ++ name))
  | _, none => .error (.unexpected ("--" ++ name))

/-- The options after a run of short names, or what they ask for. What follows the name of the configuration is its value. -/
def short (o : Options) : List Char → Except UsageError (Options ⊕ Request)
  | [] => .ok (.inl o)
  | 'c' :: rest =>
    let attached := match rest with
      | [] => none
      | '=' :: cs => some (String.ofList cs)
      | cs => some (String.ofList cs)
    (o.withConfig attached).map .inl
  | 'v' :: rest => do (← o.withVerbose).short rest
  | 'h' :: _ => o.settle.map fun _ => .inr (.help .program)
  | 'V' :: _ => o.settle.map fun _ => .inr .version
  | c :: _ => .error (.unexpected (String.ofList ['-', c]))

/-- The options after one argument that looks like an option, or what it asks for. -/
def read (o : Options) (a : String) : Except UsageError (Options ⊕ Request) :=
  match a.toList with
  | '-' :: '-' :: cs =>
    let value := match cs.dropWhile (· ≠ '=') with
      | _ :: v => some (String.ofList v)
      | [] => none
    o.long (String.ofList (cs.takeWhile (· ≠ '='))) value
  | '-' :: cs => o.short cs
  | _ => .error (.unexpected a)

/-- What is asked for when everything is read. -/
def finish (o : Options) (task : Task) : Except UsageError Request := do
  let o ← o.settle
  .ok (.invoke ⟨o.config.getD "audit.yaml", o.verbose, task⟩)

end Options

/-- Reads the arguments from the given options on. -/
def scan : List String → Options → Except UsageError Request
  | [], o => o.finish .serve
  | a :: rest, o =>
    if a = "--" then match rest with
      | [] => o.finish .serve
      | b :: _ => .error (.unexpected b)
    else if looksLikeOption a then do
      match ← o.read a with
      | .inl o => scan rest o
      | .inr r => .ok r
    else if o.waiting = some none then scan rest { o with waiting := some (some a) }
    else match Page.ofCommand? a with
      | none => .error (.unknownCommand a)
      | some page => do
        match ← command page rest with
        | .inl task => o.finish task
        | .inr p => .ok (.help p)

/-- What the arguments ask for. -/
def Request.ofArguments (args : List String) : Except UsageError Request := scan args {}

end AuditTrail.Cli
