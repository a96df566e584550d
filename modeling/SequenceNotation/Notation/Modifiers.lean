import SequenceNotation.Diagnostics
import SequenceNotation.Notation.Start
import SequenceNotation.Number.Text
import SequenceNotation.Sequence.Folding
import SequenceNotation.Settings.Basic

/-!
# Modifiers

Behind the start of a line stand modifiers in any order.  Each is a key and a value that runs up to the
next boundary; the first character of a value never ends it, and one layer of quotes around it is removed.
A number outside of all modifiers is the step.  A modifier that is absent, or whose value cannot be read,
leaves what the settings say.
-/

namespace SequenceNotation.Notation

open SequenceNotation.Number SequenceNotation.Text
open SequenceNotation.Pattern (Found)
open SequenceNotation.Calendar SequenceNotation.Sequence

structure Modifiers where
  step : Double
  /-- The unit of time given with the step. -/
  dateUnit : Option DateUnit := none
  frequency : Nat
  repetition : Option Nat
  startover : Option Nat
  format : Option String := none
  expression : String := ""
  stopExpression : String := ""
  options : String := ""
  deriving DecidableEq

/-- An optional value in records. -/
def optionText {α : Type} (text : α → String) : Option α → String
  | some a => "Some(" ++ text a ++ ")"
  | none => "None"

def unitName : DateUnit → String
  | .day => "Day"
  | .week => "Week"
  | .month => "Month"
  | .year => "Year"

namespace Modifiers

/-- What counts without any modifier.  A bound of zero is none. -/
def ofSettings (settings : Settings) : Modifiers :=
  { step := settings.step
    frequency := max settings.frequency 1
    repetition := settings.repetition.filter (0 < ·)
    startover := settings.startover.filter (0 < ·) }

def folding (modifiers : Modifiers) : Folding :=
  { step := modifiers.step
    frequency := modifiers.frequency
    repetition := modifiers.repetition
    startover := modifiers.startover }

/-- Whether a letter is among the options, in either case. -/
def hasOption (modifiers : Modifiers) (flag : Char) : Bool :=
  modifiers.options.toList.any fun c => c.toLower = flag.toLower

/-- The modifiers in records. -/
def recordText (modifiers : Modifiers) : String :=
  let fields :=
    [("step", modifiers.step.toRecordText),
     ("date_unit", optionText unitName modifiers.dateUnit),
     ("frequency", toString modifiers.frequency),
     ("repetition", optionText toString modifiers.repetition),
     ("startover", optionText toString modifiers.startover),
     ("format", optionText recordQuoted modifiers.format),
     ("expression", recordQuoted modifiers.expression),
     ("stop_expression", recordQuoted modifiers.stopExpression),
     ("options", recordQuoted modifiers.options)]
  "Modifiers \x7b " ++ ", ".intercalate (fields.map fun (name, text) => name ++ ": " ++ text) ++
    " \x7d"

end Modifiers

/-- What a modifier sets. -/
inductive ModifierKey where
  | step | format | frequency | startover | repetition | expression | stop | options
  deriving DecidableEq, Repr

namespace ModifierKey

def all : List ModifierKey :=
  [step, format, frequency, startover, repetition, expression, stop, options]

/-- The named part of the segment for keys that takes part in the match of a key. -/
def partName : ModifierKey → String
  | step => "step"
  | format => "format"
  | frequency => "frequency"
  | startover => "startover"
  | repetition => "repetition"
  | expression => "expression"
  | stop => "stop"
  | options => "options"

def ofMatch? (found : Found) : Option ModifierKey :=
  all.find? fun key => (found.part? key.partName).isSome

end ModifierKey

/-- A modifier as it is written: its key, the text of the key, and the text of the value. -/
structure WrittenModifier where
  key : ModifierKey
  keyText : List Char
  value : List Char
  deriving DecidableEq, Repr

/-- A value without the quotes that enclose it. -/
def unquote (value : List Char) : List Char :=
  (enclosed? '"' value <|> enclosed? '\'' value <|> enclosed? '\x60' value).getD value

/-- How many bytes at the start of a masked text are the value of a modifier.  `text` is what the mask
covers. -/
def valueLength (segments : Segments) (masked text : List Char) : Nat :=
  match text with
  | [] => 0
  | c :: _ => if isBlank c then 0 else segments.boundaryAfter masked c.utf8Size

/-- The modifiers of a text with its mask, and the text outside of them, where each modifier leaves a
space. -/
def writtenModifiers (segments : Segments) (masked text : List Char) :
    List WrittenModifier × List Char :=
  match segments.find? "modifier" masked with
  | none => ([], text)
  | some found =>
    let (bare, rest) := splitAtByte (byteLength found.before) text
    let behind := (splitAtByte (byteLength found.matched) rest).2
    let length := valueLength segments found.after behind
    let (value, text') := splitAtByte length behind
    let masked' := (splitAtByte length found.after).2
    if masked'.length < masked.length then
      let (modifiers, outside) := writtenModifiers segments masked' text'
      let modifiers := match ModifierKey.ofMatch? found with
        | some key =>
          { key, keyText := found.matched, value := unquote (trim value) } :: modifiers
        | none => modifiers
      (modifiers, bare ++ ' ' :: outside)
    else ([], text)
termination_by masked.length

/-- The unit of time that a letter behind a step stands for. -/
def unitOfLetter? (text : List Char) : Option DateUnit :=
  match text with
  | ['d'] | ['D'] => some .day
  | ['w'] | ['W'] => some .week
  | ['m'] | ['M'] => some .month
  | ['y'] | ['Y'] => some .year
  | _ => none

/-- A count above zero. -/
def readCount? (segments : Segments) (value : List Char) : Option Nat :=
  if (segments.find? "count_value" value).isSome then
    (readBounded? countBound value).filter (0 < ·)
  else none

namespace Modifiers

/-- Sets the step and its unit.  A number that is none leaves the step. -/
def setStep (segments : Segments) (modifiers : Modifiers) (value : List Char) : Logged Modifiers :=
  match segments.find? "step_value" value with
  | some found =>
    pure
      { modifiers with
        step := ((found.part? "amount").bind readDouble).getD modifiers.step
        dateUnit := (found.part? "unit").bind unitOfLetter? }
  | none => do
    Logged.debug ("step '" ++ String.ofList value ++ "' is not a number, using default")
    return modifiers

/-- Sets a count; `subject` names it in the log. -/
def setCount (segments : Segments) (modifiers : Modifiers) (subject : String) (value : List Char)
    (set : Nat → Modifiers) : Logged Modifiers :=
  match readCount? segments value with
  | some n => pure (set n)
  | none => do
    Logged.debug (subject ++ " '" ++ String.ofList value ++ "' ignored")
    return modifiers

/-- Sets what a key stands for. -/
def apply (segments : Segments) (modifiers : Modifiers) (key : ModifierKey) (value : List Char) :
    Logged Modifiers :=
  match key with
  | .step => modifiers.setStep segments value
  | .frequency => modifiers.setCount segments "frequency" value fun n => { modifiers with frequency := n }
  | .repetition =>
    modifiers.setCount segments "repetition" value fun n => { modifiers with repetition := some n }
  | .startover =>
    modifiers.setCount segments "startover" value fun n => { modifiers with startover := some n }
  | .format =>
    pure (if value = [] then modifiers else { modifiers with format := some (String.ofList value) })
  | .expression => pure { modifiers with expression := String.ofList value }
  | .stop => pure { modifiers with stopExpression := String.ofList value }
  | .options => pure { modifiers with options := String.ofList value }

/-- Applies written modifiers in order; a key that has been seen is left out. -/
def applyAll (segments : Segments) (modifiers : Modifiers) (seen : List ModifierKey) :
    List WrittenModifier → Logged Modifiers
  | [] => pure modifiers
  | written :: rest =>
    if written.key ∈ seen then do
      Logged.debug ("repeated modifier '" ++ String.ofList written.keyText ++ "' ignored")
      modifiers.applyAll segments seen rest
    else do
      let modifiers ← modifiers.apply segments written.key written.value
      modifiers.applyAll segments (written.key :: seen) rest

/-- Without a modifier for the step, the first word outside of all modifiers sets it. -/
def applyBareStep (segments : Segments) (modifiers : Modifiers) (written : List WrittenModifier)
    (outside : List Char) : Logged Modifiers :=
  if written.any (·.key = .step) then pure modifiers
  else
    match firstWord? outside with
    | some word => modifiers.apply segments .step word
    | none => pure modifiers

/-- The modifiers in the text behind a start. -/
def extract (segments : Segments) (settings : Settings) (remainder : String) : Logged Modifiers := do
  let text := remainder.toList
  let (written, outside) := writtenModifiers segments (mask text) text
  let modifiers ← (ofSettings settings).applyAll segments [] written
  let modifiers ← modifiers.applyBareStep segments written outside
  Logged.debug ("modifiers: " ++ modifiers.recordText)
  return modifiers

end Modifiers

end SequenceNotation.Notation
