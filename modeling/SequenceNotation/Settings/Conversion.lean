import SequenceNotation.Number.Reading
import SequenceNotation.Number.Text
import SequenceNotation.Settings.Data
import SequenceNotation.Text.Case
import SequenceNotation.Text.Digit

/-!
# Conversions

Two ways to read a value from data.  The strict one accepts each kind of value as itself only.  The loose
one also reads numbers and truth values from texts, prints numbers where a text is asked for, and does
not look at the case of names.
-/

namespace SequenceNotation

open SequenceNotation.Number SequenceNotation.Text

/-- How values are read from data. -/
structure Conversion where
  text? : Data → Option String
  number? : Data → Option Double
  /-- A count below `2 ^ 64`. -/
  count? : Data → Option Nat
  flag? : Data → Option Bool
  /-- Which of some names the data choose. -/
  choice? : List String → Data → Option String

/-- An integer as a count, if it is one below `2 ^ 64`. -/
def countOfInt? (n : Int) : Option Nat :=
  if 0 ≤ n ∧ n < Nat.pow 2 64 then some n.toNat else none

namespace Conversion

def strict : Conversion where
  text?
    | .text s => some s
    | _ => none
  number?
    | .float x => some x
    | .integer n => some (Double.ofInt n)
    | _ => none
  count?
    | .integer n => countOfInt? n
    | _ => none
  flag?
    | .boolean b => some b
    | _ => none
  choice? names
    | .text s => names.find? (· = s)
    | .table [(key, .null)] => names.find? (· = key)
    | _ => none

/-- Texts in lower case, which is what the loose conversion compares. -/
def folded (text : String) : String :=
  String.ofList (lowerText text.toList)

/-- A word for yes or no. -/
def truthOfWord? (text : String) : Option Bool :=
  if folded text ∈ ["true", "on", "yes"] then some true
  else if folded text ∈ ["false", "off", "no"] then some false
  else none

/-- The number for a truth value. -/
def bit (b : Bool) : Nat :=
  if b then 1 else 0

def loose : Conversion where
  text?
    | .text s => some s
    | .boolean b => some (if b then "true" else "false")
    | .integer n => some (toString n)
    | .float x => some x.toPlainText
    | _ => none
  number?
    | .float x => some x
    | .integer n => some (Double.ofInt n)
    | .boolean b => some (Double.ofNat (bit b))
    | .text s =>
      match truthOfWord? s with
      | some b => some (Double.ofNat (bit b))
      | none => readDouble s.toList
    | _ => none
  count?
    | .integer n => countOfInt? n
    | .float x => some x.round.toNat64
    | .boolean b => some (bit b)
    | .text s =>
      match truthOfWord? s with
      | some b => some (bit b)
      | none => readBounded? (Nat.pow 2 64) s.toList
    | _ => none
  flag?
    | .boolean b => some b
    | .integer n => some (n ≠ 0)
    | .float x => some (!x.isZero)
    | .text s => if s = "1" then some true else if s = "0" then some false else truthOfWord? s
    | _ => none
  choice? names
    | .text s => names.find? fun name => folded name = folded s
    | .table [(key, _)] => names.find? fun name => folded name = folded key
    | _ => none

end Conversion

end SequenceNotation
