import SequenceNotation.Settings.KeyPath
import SequenceNotation.Settings.Reading
import SequenceNotation.Toml.Document

/-!
# Layers of settings

Settings come in layers: built-in ones, then files, then single values.  A higher layer wins.  Tables are
merged entry by entry, and lists are replaced as a whole.
-/

namespace SequenceNotation

open SequenceNotation.Text

/-- The names of the days and months among the built-in lists. -/
def builtInLists : List (List String) :=
  [["Monday", "Tuesday", "Wednesday", "Thursday", "Friday", "Saturday", "Sunday"],
   ["January", "February", "March", "April", "May", "June", "July", "August", "September",
    "October", "November", "December"],
   ["Mon", "Tue", "Wed", "Thu", "Fri", "Sat", "Sun"],
   ["Jan", "Feb", "Mar", "Apr", "May", "Jun", "Jul", "Aug", "Sep", "Oct", "Nov", "Dec"]]

def builtInFunctions : List String :=
  ["(i, start, step) => start + i * step",
   "function (i, start) \x7b return start * Math.pow(2, i) \x7d",
   "(i, start, step, freq, rep) => (i % rep) + 1"]

/-- The built-in layer. -/
def builtInData : List (String × Data) :=
  [("start", .text "1"), ("step", .float 1), ("frequency", .integer 1),
   ("number_format", .text ""), ("string_format", .text ""), ("date_format", .text "yyyy-MM-dd"),
   ("date_unit", .text "day"), ("century", .text "20"), ("language", .text "en"),
   ("alphabet", .text "abcdefghijklmnopqrstuvwxyz"), ("alpha_capital", .text "preserve"),
   ("radix_prefix", .boolean false),
   ("mysequences", .list (builtInLists.map fun items => .list (items.map .text))),
   ("myfunctions", .list (builtInFunctions.map .text)), ("default_function_nr", .integer 1),
   ("eval_timeout_ms", .integer 1000), ("debug", .boolean false)]

/-- A file of settings: its text, or that it is missing. -/
inductive SettingsFile where
  | present (text : String)
  | missing (required : Bool)
  deriving DecidableEq, Repr

/-- Why there are no settings. -/
inductive SettingsFault where
  | missingFile
  | malformedFile
  | malformedKey (key : String)
  | unsuitableValue
  deriving DecidableEq, Repr

def SettingsFault.message : SettingsFault → String
  | missingFile => "configuration file not found"
  | malformedFile => "configuration file is not valid TOML"
  | malformedKey key => "key '" ++ key ++ "' is not a path"
  | unsuitableValue => "a setting has a value that does not fit"

/-- A key as it is written in files: capitals become small letters behind an underscore, except at the
start. -/
def normalizeKey (key : String) : String :=
  String.ofList
    ((trim key.toList).foldl (fun front c =>
      if c.isUpper then (if front = [] then [] else front ++ ['_']) ++ [c.toLower]
      else front ++ [c]) [])

/-- Sets the entries of a file.  A key that is no path is taken as it is. -/
def applyEntries (data : Data) (entries : List (String × Data)) : Data :=
  entries.foldl (fun data (key, value) =>
    match readPath? key with
    | some path => Data.setAt value path data
    | none => data.merge key value) data

/-- Sets the entries of files, the last of which wins. -/
def applyFiles (data : Data) : List SettingsFile → Except SettingsFault Data
  | [] => .ok data
  | .missing required :: rest => if required then .error .missingFile else applyFiles data rest
  | .present text :: rest =>
    match Toml.readDocument? text with
    | some entries => applyFiles (applyEntries data entries) rest
    | none => .error .malformedFile

/-- The path of a key that is set on its own. -/
def overridePath (key : String) : Except SettingsFault (List PathStep) :=
  match readPath? (normalizeKey key) with
  | some path => .ok path
  | none => .error (.malformedKey key)

/-- The settings of all layers. -/
def layeredSettings (files : List SettingsFile) (overrides : List (String × Data)) :
    Except SettingsFault Settings := do
  let paths ← overrides.mapM fun (key, value) => (overridePath key).map fun path => (path, value)
  let data ← applyFiles (applyEntries (.table []) builtInData) files
  let data := paths.foldl (fun data (path, value) => Data.setAt value path data) data
  match Settings.ofData? .loose data with
  | some settings => .ok settings
  | none => .error .unsuitableValue

end SequenceNotation
