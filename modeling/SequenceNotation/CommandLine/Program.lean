import SequenceNotation.CommandLine.Arguments
import SequenceNotation.CommandLine.Json
import SequenceNotation.Sequence.Prepared
import SequenceNotation.Settings.Layers
import SequenceNotation.Text.Split

/-!
# The program

The program reads one line of the notation and prints a value for every selection, each on a line of its
own or all of them in one JSON record.  What it notices on the way goes to the error output.
-/

namespace SequenceNotation.CommandLine

open SequenceNotation.Sequence SequenceNotation.Notation SequenceNotation.Calendar

/-- What the program finds around it. -/
structure Surroundings where
  /-- The text of the file of settings, if there is such a file. -/
  settingsText : Option String
  /-- The whole input. -/
  input : String
  now : DateTime
  seed : Nat

/-- Why the program fails. -/
inductive CommandFault where
  | settings (fault : SettingsFault)
  | alphabet (fault : AlphabetFault)
  | malformedOverride (text : String)
  deriving DecidableEq, Repr

def CommandFault.message : CommandFault → String
  | settings fault => "configuration error: " ++ fault.message
  | alphabet fault => fault.message
  | malformedOverride text => "invalid --set '" ++ text ++ "', expected KEY=VALUE"

/-- What a run of the program comes to: its log, and its output or why it fails. -/
abbrev Execution := Logged (Except CommandFault String)

/-- A setting written as key and value around the first equals sign. -/
def readOverride (text : String) : Except CommandFault (String × Data) :=
  let key := text.toList.takeWhile (· ≠ '=')
  match text.toList.drop key.length with
  | [] => .error (.malformedOverride text)
  | _ :: value =>
    if Text.trim key = [] then .error (.malformedOverride text)
    else .ok (String.ofList key, .text (String.ofList value))

/-- Reads settings of single values; the first fault counts, be it in the form or in the key. -/
def readOverrides : List String → Except CommandFault (List (String × Data))
  | [] => .ok []
  | text :: rest => do
    let (key, value) ← readOverride text
    let _ ← (overridePath key).mapError .settings
    let overrides ← readOverrides rest
    return (key, value) :: overrides

/-- The settings of a run. -/
def loadSettings (arguments : Arguments) (surroundings : Surroundings) :
    Except CommandFault Settings := do
  let files := match arguments.settingsFile, surroundings.settingsText with
    | none, _ => []
    | some _, some text => [SettingsFile.present text]
    | some _, none => [SettingsFile.missing true]
  let overrides ← readOverrides arguments.overrides
  let settings ← (layeredSettings files overrides).mapError .settings
  return { settings with debug := settings.debug || arguments.verbose }

/-- The selections of a run: given ones, empty ones, and lines of the input.  There is an empty one if
nothing is asked for. -/
def readSelections (arguments : Arguments) (input : String) : List String :=
  let lines := if arguments.readsInput then Text.splitLines input.toList else []
  let selections :=
    arguments.selections ++ List.replicate (arguments.count.getD 0) "" ++ lines.map String.ofList
  if selections = [] ∧ arguments.count = none then [""] else selections

def severityName : Severity → String
  | .debug => "debug"
  | .warning => "warning"

/-- The values with their kind and what has been noticed. -/
def recordOf (kind : SequenceKind) (values : List String) (diagnostics : Diagnostics) : Data :=
  .table
    [("diagnostics", .list (diagnostics.entries.map fun entry =>
        .table [("message", .text entry.message), ("severity", .text (severityName entry.severity))])),
     ("kind", .text kind.recordText),
     ("values", .list (values.map .text))]

/-- The output for a sequence. -/
def outputOf (arguments : Arguments) (verbose : Bool) (kind : SequenceKind) (values : List String)
    (log : List Diagnostic) : String :=
  if arguments.json then
    let diagnostics := ({ verbose } : Diagnostics).recordAll log
    jsonText 0 (recordOf kind values diagnostics) ++ "\n"
  else String.join (values.map (· ++ "\n"))

/-- Makes the sequence of the line and collects its values. -/
def generate (arguments : Arguments) (surroundings : Surroundings) (settings : Settings) : Execution :=
  let context : Context :=
    { settings
      selections := readSelections arguments surroundings.input
      segments := Segments.ofDelimiter arguments.delimiter
      now := surroundings.now
      seed := surroundings.seed }
  let prepared := Sequence.prepare context arguments.line
  match prepared.value with
  | .error fault => { value := .error (.alphabet fault), log := prepared.log }
  | .ok sequence =>
    let collected := sequence.collect sequence.initial arguments.cap
    let log := prepared.log ++ collected.log
    { value := .ok (outputOf arguments settings.debug sequence.kind collected.value.1 log), log }

/-- A run of the program. -/
def execute (arguments : Arguments) (surroundings : Surroundings) : Execution :=
  match loadSettings arguments surroundings with
  | .error fault => { value := .error fault }
  | .ok settings => generate arguments surroundings settings

/-- A character in the error output, where none may control a terminal. -/
def logEscape (c : Char) : List Char :=
  if c = '\x1b' || c = '\x07' || c = '\x08' || c = '\x0c' || c = '\x7f' then
    ['\\', 'x', hexDigit (c.toNat / 16), hexDigit (c.toNat % 16)]
  else if '\x80' ≤ c ∧ c ≤ '\x9f' then
    ['\\', 'u', '\x7b', hexDigit (c.toNat / 16), hexDigit (c.toNat % 16), '\x7d']
  else [c]

/-- A line of the error output. -/
def logLine (entry : Diagnostic) : String :=
  let label := match entry.severity with
    | .debug => "DEBUG"
    | .warning => " WARN"
  label ++ " insertseq: " ++ String.ofList (entry.message.toList.flatMap logEscape) ++ "\n"

/-- What is seen of a run: the exit code, the output, and the error output. -/
structure Outcome where
  exitCode : Nat
  output : String := ""
  errors : String := ""
  deriving DecidableEq, Repr

/-- What is seen of a run.  Details are only shown if asked for. -/
def outcomeOf (verbose : Bool) (execution : Execution) : Outcome :=
  let shown := execution.log.filter fun entry => verbose || entry.severity = .warning
  let log := String.join (shown.map logLine)
  match execution.value with
  | .ok output => { exitCode := 0, output, errors := log }
  | .error fault => { exitCode := 1, errors := log ++ "Error: " ++ fault.message ++ "\n" }

/-- The name of the program and its version. -/
def versionText : String :=
  "insertseq 0.1.0\n"

def helpText : String :=
  "Generate sequences from a compact one-line notation

Usage: insertseq [OPTIONS] [line]

Arguments:
  [line]  Sequence notation, e.g. '5 steps:2 ~03d' or '%2025-01-31 step:1m' [default: ]

Options:
  -s, --selection <selection>  Original text of one insertion point (repeatable)
  -n, --count <count>          Number of empty insertion points
      --stdin                  Read insertion point texts from stdin, one per line
  -c, --config <config>        TOML settings file layered over the defaults
      --set <KEY=VALUE>        Override one setting, e.g. --set number_format=03d (repeatable)
      --delimiter <delimiter>  Extra text that ends the start token and modifier values
      --max <max>              Upper bound on emitted values when a stop expression decides [default: 1000]
      --json                   Print values and diagnostics as JSON
  -v, --verbose                Log debug diagnostics to stderr
  -h, --help                   Print help
  -V, --version                Print version
"

/-- What is seen in place of a run. -/
def Notice.outcome : Notice → Outcome
  | help => { exitCode := 0, output := helpText }
  | version => { exitCode := 0, output := versionText }
  | misuse reason =>
    { exitCode := 2
      errors := "error: " ++ reason ++ "\n\nUsage: insertseq [OPTIONS] [line]\n\n" ++
        "For more information, try '--help'.\n" }

end SequenceNotation.CommandLine
