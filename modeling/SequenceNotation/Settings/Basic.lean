import SequenceNotation.Alphabet.Capitalization
import SequenceNotation.Calendar.Date
import SequenceNotation.Number.Double

/-!
# Settings

What a user can set once for all sequences, with the values that count where nothing is set.
-/

namespace SequenceNotation

open SequenceNotation.Number SequenceNotation.Calendar

structure Settings where
  /-- The start of a sequence whose line has none. -/
  start : String := "1"
  step : Double := 1
  frequency : Nat := 1
  repetition : Option Nat := none
  startover : Option Nat := none
  numberFormat : String := ""
  stringFormat : String := ""
  dateFormat : String := "yyyy-MM-dd"
  dateUnit : DateUnit := .day
  /-- What stands in front of years of two digits. -/
  century : String := "20"
  /-- The language of the names of months. -/
  language : String := "en"
  alphabet : String := "abcdefghijklmnopqrstuvwxyz"
  alphaCapital : Capitalization := .preserve
  radixPrefix : Bool := false
  /-- The lists that a line can choose from. -/
  lists : List (List String) := []
  /-- The sources of the functions that a line can choose from. -/
  functions : List String := []
  /-- The number of the function that counts if a line names none. -/
  defaultFunction : Nat := 1
  timeoutMilliseconds : Nat := 1000
  debug : Bool := false
  deriving DecidableEq

end SequenceNotation
