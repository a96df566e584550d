import SequenceNotation.Text.Digit

/-!
# Arguments

The words behind the name of the program: one line of the notation, and options.  An option is written out
behind two dashes or with one letter behind one dash, and its value stands in the next word or in the same
one.  A word that begins with a dash but is no option is the line, as long as there is none, and anything
may be a selection.
-/

namespace SequenceNotation.CommandLine

open SequenceNotation.Text

/-- What the words of a command say. -/
structure Arguments where
  line : String := ""
  selections : List String := []
  /-- How many empty selections there are. -/
  count : Option Nat := none
  /-- Whether the lines of the input are selections. -/
  readsInput : Bool := false
  /-- The name of a file of settings. -/
  settingsFile : Option String := none
  /-- Settings of single values, as they are written. -/
  overrides : List String := []
  delimiter : Option String := none
  /-- How many values there are at most. -/
  cap : Nat := 1000
  json : Bool := false
  verbose : Bool := false
  deriving DecidableEq, Repr

/-- What the program does in place of its work. -/
inductive Notice where
  | help | version
  /-- The words are not understood. -/
  | misuse (reason : String)
  deriving DecidableEq, Repr

/-- The options. -/
inductive CommandOption where
  | selection | count | input | settingsFile | override | delimiter | cap | json | verbose | help
  | version
  deriving DecidableEq, Repr

namespace CommandOption

def all : List CommandOption :=
  [selection, count, input, settingsFile, override, delimiter, cap, json, verbose, help, version]

/-- The name behind two dashes. -/
def name : CommandOption → String
  | selection => "selection"
  | count => "count"
  | input => "stdin"
  | settingsFile => "config"
  | override => "set"
  | delimiter => "delimiter"
  | cap => "max"
  | json => "json"
  | verbose => "verbose"
  | help => "help"
  | version => "version"

/-- The letter behind one dash. -/
def letter? : CommandOption → Option Char
  | selection => some 's'
  | count => some 'n'
  | settingsFile => some 'c'
  | verbose => some 'v'
  | help => some 'h'
  | version => some 'V'
  | _ => none

def ofName? (text : List Char) : Option CommandOption :=
  all.find? fun option => option.name.toList = text

def ofLetter? (c : Char) : Option CommandOption :=
  all.find? fun option => option.letter? = some c

/-- Whether a value belongs to the option. -/
def takesValue : CommandOption → Bool
  | selection | count | settingsFile | override | delimiter | cap => true
  | _ => false

/-- Whether the option may be given again. -/
def repeats : CommandOption → Bool
  | selection | override => true
  | _ => false

end CommandOption

/-- The words that have been read. -/
structure ArgumentState where
  arguments : Arguments := {}
  /-- The options that have been given. -/
  given : List CommandOption := []
  /-- The option whose value comes next. -/
  pending : Option CommandOption := none
  hasLine : Bool := false
  /-- Whether two dashes alone have ended the options. -/
  optionsEnded : Bool := false
  deriving DecidableEq, Repr

/-- A step of reading words. -/
abbrev ArgumentStep := Except Notice ArgumentState

namespace ArgumentState

variable (state : ArgumentState)

def misuse (reason : String) : ArgumentStep :=
  .error (.misuse reason)

/-- The state once an option has been given, unless that is once too often. -/
def give (option : CommandOption) : ArgumentStep :=
  if option ∈ state.given ∧ !option.repeats then
    misuse ("'--" ++ option.name ++ "' cannot be given more than once")
  else .ok { state with given := option :: state.given, pending := none }

/-- A count of an option. -/
def countOf (option : CommandOption) (text : String) : Except Notice Nat :=
  match readBounded? (Nat.pow 2 64) text.toList with
  | some n => .ok n
  | none => .error (.misuse ("'" ++ text ++ "' is no count for '--" ++ option.name ++ "'"))

/-- Sets an option to a value. -/
def setValue (option : CommandOption) (text : String) : ArgumentStep := do
  let arguments := state.arguments
  let arguments ← match option with
    | .selection => .ok { arguments with selections := arguments.selections ++ [text] }
    | .count => (countOf option text).map fun n => { arguments with count := some n }
    | .cap => (countOf option text).map fun n => { arguments with cap := n }
    | .settingsFile => .ok { arguments with settingsFile := some text }
    | .override => .ok { arguments with overrides := arguments.overrides ++ [text] }
    | .delimiter => .ok { arguments with delimiter := some text }
    | _ => .ok arguments
  { state with arguments }.give option

/-- Turns on an option without a value. -/
def turnOn (option : CommandOption) : ArgumentStep :=
  match option with
  | .help => .error .help
  | .version => .error .version
  | .input => { state with arguments := { state.arguments with readsInput := true } }.give option
  | .json => { state with arguments := { state.arguments with json := true } }.give option
  | .verbose => { state with arguments := { state.arguments with verbose := true } }.give option
  | _ => .ok state

/-- An option needs its value before another one comes. -/
def requireNothingPending : Except Notice Unit :=
  match state.pending with
  | some option => .error (.misuse ("a value is required for '--" ++ option.name ++ "'"))
  | none => .ok ()

/-- Takes an option with the value in the same word, if there is one. -/
def takeOption (option : CommandOption) (value : Option String) : ArgumentStep := do
  state.requireNothingPending
  match option.takesValue, value with
  | true, some text => state.setValue option text
  | true, none => .ok { state with pending := some option }
  | false, none => state.turnOn option
  | false, some _ => misuse ("'--" ++ option.name ++ "' has no value")

/-- Takes a word that is no option: a value that is pending, or else the line. -/
def takeWord (word : String) : ArgumentStep :=
  match state.pending with
  | some option => state.setValue option word
  | none =>
    if state.hasLine then misuse ("unexpected argument '" ++ word ++ "'")
    else .ok { state with arguments := { state.arguments with line := word }, hasLine := true }

/-- Takes a word that looks like an option and is none. -/
def takeUnknown (word : String) : ArgumentStep :=
  if state.hasLine then misuse ("unexpected argument '" ++ word ++ "'") else state.takeWord word

/-- Takes the letters behind a dash.  The first one that takes a value has the rest as its value. -/
def takeLetters (word : String) : ArgumentState → List Char → ArgumentStep
  | state, [] => .ok state
  | state, c :: rest =>
    match CommandOption.ofLetter? c with
    | none => misuse ("unexpected argument '" ++ word ++ "'")
    | some option =>
      if option.takesValue then
        match rest with
        | [] => state.takeOption option none
        | '=' :: value => state.takeOption option (some (String.ofList value))
        | value => state.takeOption option (some (String.ofList value))
      else do takeLetters word (← state.takeOption option none) rest

/-- Takes what stands behind two dashes. -/
def takeLong (word : String) (text : List Char) : ArgumentStep :=
  let name := text.takeWhile (· ≠ '=')
  let value := match text.drop name.length with
    | [] => none
    | _ :: value => some (String.ofList value)
  match CommandOption.ofName? name with
  | some option => state.takeOption option value
  | none => state.takeUnknown word

/-- Takes what stands behind one dash.  With a letter that is no option, it is a word. -/
def takeShort (word : String) (letters : List Char) : ArgumentStep :=
  if !state.hasLine && letters.any fun c => (CommandOption.ofLetter? c).isNone then
    state.takeWord word
  else takeLetters word state letters

/-- Takes a word. -/
def take (word : String) : ArgumentStep :=
  if state.optionsEnded then do
    state.requireNothingPending
    state.takeWord word
  else if state.pending = some .selection then state.takeWord word
  else
    match word.toList with
    | ['-', '-'] => .ok { state with optionsEnded := true }
    | '-' :: '-' :: text => state.takeLong word text
    | '-' :: c :: letters => state.takeShort word (c :: letters)
    | _ => state.takeWord word

end ArgumentState

/-- What the words of a command say, or what is done in place of it. -/
def readArguments (words : List String) : Except Notice Arguments := do
  let state ← words.foldlM ArgumentState.take {}
  state.requireNothingPending
  return state.arguments

end SequenceNotation.CommandLine
