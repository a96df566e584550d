import SequenceNotation.Settings.Basic
import SequenceNotation.Settings.Conversion

/-!
# Reading settings

Settings are read from a table whose keys name them, or from a list of their values in order.  Some have
two names, of which only one may be used.  Settings without an entry have their plain values, and entries
without a setting do not count.
-/

namespace SequenceNotation

open SequenceNotation.Calendar

/-- The names of all settings in order. -/
def settingNames : List (List String) :=
  [["start"], ["step"], ["frequency"], ["repetition"], ["startover"],
   ["numberFormat", "number_format"], ["stringFormat", "string_format"],
   ["dateFormat", "date_format"], ["date_unit", "dateUnit"], ["century"], ["language"],
   ["alphabet"], ["alphaCapital", "alpha_capital"], ["radixPrefix", "radix_prefix"],
   ["mysequences"], ["myfunctions"], ["defaultFunctionNr", "default_function_nr"],
   ["evalTimeoutMs", "eval_timeout_ms"], ["debug"]]

/-- The names of each unit of time. -/
def unitNames : List (DateUnit × List String) :=
  [(.day, ["day", "d", "days"]), (.week, ["week", "w", "weeks"]), (.month, ["month", "m", "months"]),
   (.year, ["year", "y", "years"])]

/-- The name of each capitalization. -/
def capitalizationNames : List (Capitalization × List String) :=
  [(.upper, ["upper"]), (.lower, ["lower"]), (.pascal, ["pascal"]), (.preserve, ["preserve"])]

/-- What the data choose by its name. -/
def readChoice? {α : Type} (conversion : Conversion) (choices : List (α × List String))
    (data : Data) : Option α := do
  let name ← conversion.choice? (choices.flatMap (·.2)) data
  let (choice, _) ← choices.find? fun (_, names) => name ∈ names
  return choice

/-- An optional value; null is none. -/
def readOptional? {α : Type} (read : Data → Option α) : Data → Option (Option α)
  | .null => some none
  | data => (read data).map some

/-- A list of values. -/
def readList? {α : Type} (read : Data → Option α) : Data → Option (List α)
  | .list items => items.mapM read
  | _ => none

/-- A text as itself. -/
def asText? : Data → Option String
  | .text source => some source
  | _ => none

/-- The source of a function: a text, or a table that holds it as `code`. -/
def readFunctionSource? : Data → Option String
  | .text source => some source
  | .table entries =>
    match entries.filter (·.1 = "code") with
    | [(_, source)] => asText? source
    | _ => none
  | _ => none

/-- The entries that data set, if they set settings at all. -/
def settingEntries? : Data → Option (List (String × Data))
  | .table entries => some entries
  | .list items =>
    if items.length ≤ settingNames.length then
      some ((settingNames.map fun names => names.headD "").zip items)
    else none
  | _ => none

/-- The setting of the given names among entries, or what counts without one. -/
def readSetting? {α : Type} (entries : List (String × Data)) (names : List String)
    (read : Data → Option α) (otherwise : α) : Option α :=
  match entries.filter (·.1 ∈ names) with
  | [] => some otherwise
  | [(_, data)] => read data
  | _ => none

namespace Settings

/-- The settings that data stand for. -/
def ofData? (conversion : Conversion) (data : Data) : Option Settings := do
  let plain : Settings := {}
  let entries ← settingEntries? data
  let text := conversion.text?
  let count := conversion.count?
  return {
    start := ← readSetting? entries ["start"] text plain.start
    step := ← readSetting? entries ["step"] conversion.number? plain.step
    frequency := ← readSetting? entries ["frequency"] count plain.frequency
    repetition := ← readSetting? entries ["repetition"] (readOptional? count) plain.repetition
    startover := ← readSetting? entries ["startover"] (readOptional? count) plain.startover
    numberFormat :=
      ← readSetting? entries ["numberFormat", "number_format"] text plain.numberFormat
    stringFormat :=
      ← readSetting? entries ["stringFormat", "string_format"] text plain.stringFormat
    dateFormat := ← readSetting? entries ["dateFormat", "date_format"] text plain.dateFormat
    dateUnit :=
      ← readSetting? entries ["date_unit", "dateUnit"] (readChoice? conversion unitNames)
        plain.dateUnit
    century := ← readSetting? entries ["century"] text plain.century
    language := ← readSetting? entries ["language"] text plain.language
    alphabet := ← readSetting? entries ["alphabet"] text plain.alphabet
    alphaCapital :=
      ← readSetting? entries ["alphaCapital", "alpha_capital"]
        (readChoice? conversion capitalizationNames) plain.alphaCapital
    radixPrefix :=
      ← readSetting? entries ["radixPrefix", "radix_prefix"] conversion.flag? plain.radixPrefix
    lists := ← readSetting? entries ["mysequences"] (readList? (readList? text)) plain.lists
    functions := ← readSetting? entries ["myfunctions"] (readList? readFunctionSource?)
      plain.functions
    defaultFunction :=
      ← readSetting? entries ["defaultFunctionNr", "default_function_nr"] count
        plain.defaultFunction
    timeoutMilliseconds :=
      ← readSetting? entries ["evalTimeoutMs", "eval_timeout_ms"] count plain.timeoutMilliseconds
    debug := ← readSetting? entries ["debug"] conversion.flag? plain.debug }

end Settings

end SequenceNotation
