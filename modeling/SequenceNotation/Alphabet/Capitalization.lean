import SequenceNotation.Text.Case

/-!
# Capitalization

How the letters of a word are capitalized: all alike, only the first one upper case, or like a template.
-/

namespace SequenceNotation

open SequenceNotation.Text

inductive Capitalization where
  | upper | lower
  /-- The first letter is upper case and all others are lower case. -/
  | pascal
  /-- The letters have the case of the template. -/
  | preserve
  deriving DecidableEq, Repr

/-- A character in the case of another one, if that has a case. -/
def inCaseOf (model c : Char) : List Char :=
  if isUpper model then upperChar c else if isLower model then lowerChar c else [c]

/-- The letters of a reversed word, each with the case of its place in a reversed template; the first
letter of the template counts for letters that stand further to the left. -/
def copyCase (first : Char) : List Char → List Char → List (List Char)
  | [], _ => []
  | c :: word, [] => inCaseOf first c :: copyCase first word []
  | c :: word, model :: template => inCaseOf model c :: copyCase first word template

/-- A word with the case of a template, both aligned on the right. -/
def preserveCase (word template : List Char) : List Char :=
  match template with
  | [] => word
  | first :: _ => (copyCase first word.reverse template.reverse).reverse.flatten

/-- A word capitalized; the template only counts where case is preserved. -/
def capitalize (word : String) (policy : Capitalization) (template : String) : String :=
  match policy with
  | .upper => String.ofList (upperText word.toList)
  | .lower => String.ofList (lowerText word.toList)
  | .pascal =>
    match word.toList with
    | [] => ""
    | c :: rest => String.ofList (upperChar c ++ rest.flatMap lowerChar)
  | .preserve => String.ofList (preserveCase word.toList template.toList)

end SequenceNotation
