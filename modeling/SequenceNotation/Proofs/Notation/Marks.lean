import SequenceNotation.Notation.Start
import SequenceNotation.Proofs.Notation.SegmentPatterns

/-!
# Marks in front of starts

The words that mark the kinds of start.  A mark is found at the very beginning of a line or not at all.
-/

namespace SequenceNotation.Notation

open SequenceNotation.Text SequenceNotation.Pattern

/-- The words that mark a kind of start, in the order in which its segment tries them. -/
def StartMark.words : StartMark → List String
  | date => ["%", "date:"]
  | ownList => ["ownsequence:", "ownseq:", "own:", "["]
  | predefined =>
    [";", "predefinedsequence:", "predefinedseq:", "predefined:", "predefsequence:", "predefseq:", "predef:"]
  | expression => ["|", "expression:", "expr:"]
  | function => ["=", "function:", "func:"]

/-- The words of a pattern that is bound to the start of the text and spells words. -/
def startWords? : Pattern → Option (List (List Char))
  | .sequence .start inner => inner.words?
  | _ => none

theorem find?_of_startWords {pattern : Pattern} {words : List (List Char)} (h : startWords? pattern = some words)
    (text : List Char) :
    pattern.find? text = (words.find? (· <+: text)).map fun word => wordFound text word [] := by
  unfold startWords? at h
  split at h
  · rw [find?_start, foundAt?_of_words h]
  · cases h

/-- The segment of a mark spells its words at the start of the text. -/
theorem startWords?_mark (delimiter : Option String) (mark : StartMark) :
    startWords? ((Segments.ofDelimiter delimiter).pattern mark.segmentName) =
      some (mark.words.map String.toList) := by
  have hname : mark.segmentName ∈ fixedNames := by cases mark <;> decide
  have hsource : ∃ source text, fixedDefinitions.lookup mark.segmentName = some source ∧ source.toList = text ∧
      piecesBehind 0 text = text.map .char ∧
      startWords? ((readPattern? (withoutBlanks text)).getD .nothing) = some (mark.words.map String.toList) := by
    cases mark <;> exact ⟨_, _, rfl, String.toList_ofList, by decide, by decide +kernel⟩
  obtain ⟨source, text, hlookup, htext, hpieces, hwords⟩ := hsource
  rw [pattern_of_plain delimiter hname hlookup htext hpieces, hwords]

theorem find?_mark (delimiter : Option String) (mark : StartMark) (text : List Char) :
    (Segments.ofDelimiter delimiter).find? mark.segmentName text =
      ((mark.words.map String.toList).find? (· <+: text)).map fun word => wordFound text word [] :=
  find?_of_startWords (startWords?_mark delimiter mark) text

/-- Nothing in a mark is covered in masks. -/
theorem filler_not_mem_mark {mark : StartMark} {word : List Char} (h : word ∈ mark.words.map String.toList) :
    filler ∉ word := by
  have hall : ∀ mark ∈ StartMark.all, ∀ word ∈ mark.words.map String.toList, filler ∉ word := by decide
  exact hall mark (by cases mark <;> decide) word h

/-- The word of one character that marks a kind of start. -/
def StartMark.sign : StartMark → Char
  | date => '%'
  | ownList => '['
  | predefined => ';'
  | expression => '|'
  | function => '='

/-- A line that begins with a sign has its mark; only the bracket of a list is part of the body. -/
theorem findMark?_sign (delimiter : Option String) (mark : StartMark) (masked : List Char) :
    findMark? (Segments.ofDelimiter delimiter) (mark.sign :: masked) =
      some (mark, if mark = .ownList then 0 else 1) := by
  cases mark <;>
    simp [findMark?, StartMark.all, find?_mark, StartMark.words, StartMark.sign, StartMark.bytesInFront, wordFound] <;>
    rfl

end SequenceNotation.Notation
