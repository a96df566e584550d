import SequenceNotation.Format.NumberFormat

/-!
# Padding of texts

A padding is written `[[fill]align]width[w][lr]`.  With `w` only the last character of the text is kept,
between the fill that the whole text would have had.  A centred text has the odd fill character on its
right, or on its left with `r`.
-/

namespace SequenceNotation.Format

open SequenceNotation.Text

/-- Where a padded text stands. -/
inductive PaddedSide where
  | left | right | center
  deriving DecidableEq, Repr

/-- How a text is padded. -/
structure Padding where
  fill : Char
  side : PaddedSide
  width : Nat
  lastOnly : Bool
  oddFillLeft : Bool
  deriving DecidableEq, Repr

namespace PaddedSide

def ofSymbol? : Char → Option PaddedSide
  | '<' => some left
  | '>' => some right
  | '=' => some center
  | _ => none

end PaddedSide

/-- The fill and the side in front of a padding. -/
def spanSide : List Char → Option Char × Option PaddedSide × List Char
  | first :: rest =>
    match rest.head?.bind PaddedSide.ofSymbol?, PaddedSide.ofSymbol? first with
    | some side, _ =>
      if first = '\n' then (none, none, first :: rest) else (some first, some side, rest.tail)
    | none, some side => (none, some side, rest)
    | none, none => (none, none, first :: rest)
  | [] => (none, none, [])

namespace Padding

/-- Reads a padding, which needs a width that is a count. -/
def parse? (text : List Char) : Option Padding := do
  let (fill, side, rest) := spanSide text
  let (digits, rest) := rest.span isDecimalDigit
  let (lastOnly, rest) := optionalPart (fun c => if c = 'w' then some () else none) rest
  let (bias, rest) := optionalPart (fun c => if c = 'l' ∨ c = 'r' then some c else none) rest
  if rest ≠ [] then none
  else
    let width ← readBounded? countLimit digits
    return {
      fill := fill.getD ' '
      side := side.getD .right
      width
      lastOnly := lastOnly.isSome
      oddFillLeft := bias = some 'r' }

/-- How many fill characters stand on the left and on the right. -/
def shares (padding : Padding) (missing : Nat) : Nat × Nat :=
  match padding.side with
  | .left => (0, missing)
  | .right => (missing, 0)
  | .center =>
    if padding.oddFillLeft then (missing - missing / 2, missing / 2)
    else (missing / 2, missing - missing / 2)

/-- The text with its fill. -/
def apply (padding : Padding) (text : List Char) : List Char :=
  let (left, right) := padding.shares (padding.width - text.length)
  let kept := if padding.lastOnly then text.getLast?.toList else text
  List.replicate left padding.fill ++ kept ++ List.replicate right padding.fill

end Padding

/-- Pads a text; text that is no padding leaves it unchanged. -/
def padText (text spec : String) : String :=
  match Padding.parse? spec.toList with
  | some padding => String.ofList (padding.apply text.toList)
  | none => text

end SequenceNotation.Format
