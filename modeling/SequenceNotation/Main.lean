import SequenceNotation.CommandLine.Program
import Std.Time.Format

/-!
# The command

Reads the words, the file of settings, the input and the clock, and prints what the program comes to.
-/

namespace SequenceNotation.CommandLine

open SequenceNotation.Calendar

/-- The present local time; the first day of 1970 if the clock shows none that the calendar has. -/
def presentMoment : IO DateTime := do
  let now ← Std.Time.PlainDateTime.now
  let epoch : Date := ⟨1970, 1, 1, by decide⟩
  return {
    date := (Date.of? now.year now.month.val.toNat now.day.val.toNat).getD epoch
    hour := now.hour.val.toNat
    minute := now.minute.val.toNat
    second := now.second.val.toNat }

/-- The text of a file, if it can be read. -/
def fileText? (name : String) : IO (Option String) :=
  try some <$> IO.FS.readFile name catch _ => return none

/-- What a run finds around it. -/
def lookAround (arguments : Arguments) : IO Surroundings := do
  let settingsText ← match arguments.settingsFile with
    | some name => fileText? name
    | none => pure none
  let input ← if arguments.readsInput then (← IO.getStdin).readToEnd else pure ""
  return { settingsText, input, now := ← presentMoment, seed := ← IO.rand 0 (Nat.pow 2 31 - 1) }

/-- What the words of a command come to. -/
def outcomeOfWords (words : List String) : IO Outcome :=
  match readArguments words with
  | .error notice => return notice.outcome
  | .ok arguments => do
    return outcomeOf arguments.verbose (execute arguments (← lookAround arguments))

end SequenceNotation.CommandLine

open SequenceNotation.CommandLine in
def main (words : List String) : IO UInt32 := do
  let outcome ← outcomeOfWords words
  (← IO.getStdout).putStr outcome.output
  (← IO.getStderr).putStr outcome.errors
  return UInt32.ofNat outcome.exitCode
