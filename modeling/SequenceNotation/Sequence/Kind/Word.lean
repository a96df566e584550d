import SequenceNotation.Alphabet.Basic
import SequenceNotation.Sequence.Producer
import SequenceNotation.Sequence.Rendering

/-!
# Sequences of words

Words over the alphabet follow each other in the order by length and then by letters.
-/

namespace SequenceNotation.Sequence

open SequenceNotation.Script

structure WordSequence where
  alphabet : Alphabet
  /-- The start, which is also the template for the case of letters. -/
  word : String
  folding : Folding
  capitalization : Capitalization
  padding : Option String

namespace WordSequence

variable (sequence : WordSequence)

/-- The word at an index; in front of the first word everything is empty. -/
def wordAt (index : Nat) : String :=
  let origin := (sequence.alphabet.digits? sequence.word).getD []
  let delta := (sequence.folding.logicalIndex index).round.toInt128
  match sequence.alphabet.shift? origin delta with
  | some digits => sequence.alphabet.spell digits
  | none => ""

def capitalized (word : String) : String :=
  capitalize word sequence.capitalization sequence.word

/-- The expression selects the text that it gives. -/
def producer : Producer String where
  own? _ index _ := some (pure (sequence.wordAt index))
  shown := .text
  select own
    | .text text => pure text
    | _ => pure own
  settled word := .text (sequence.capitalized word)
  text word := renderText sequence.padding (sequence.capitalized word)

end WordSequence

end SequenceNotation.Sequence
