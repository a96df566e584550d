import SequenceNotation.Main
import SequenceNotation.Proofs.Alphabet.Decoding
import SequenceNotation.Proofs.Alphabet.MachineSums
import SequenceNotation.Proofs.Calendar.Notations
import SequenceNotation.Proofs.Format.RadixNumerals
import SequenceNotation.Proofs.Format.TextPadding
import SequenceNotation.Proofs.Notation.Boundary
import SequenceNotation.Proofs.Notation.DelimiterChange
import SequenceNotation.Proofs.Notation.EnclosingQuotes
import SequenceNotation.Proofs.Notation.ListEnds
import SequenceNotation.Proofs.Notation.MaskedLiterals
import SequenceNotation.Proofs.Notation.ModifierRoundTrip
import SequenceNotation.Proofs.Notation.QuotedItems
import SequenceNotation.Proofs.Notation.Slices
import SequenceNotation.Proofs.Notation.UnreadValues
import SequenceNotation.Proofs.Pattern.PlainExpansion
import SequenceNotation.Proofs.Script.CompoundAssignment
import SequenceNotation.Proofs.Script.DeclaredCall
import SequenceNotation.Proofs.Script.Fuel
import SequenceNotation.Proofs.Script.GrammarCompleteness
import SequenceNotation.Proofs.Script.IntegerPrefix
import SequenceNotation.Proofs.Script.LosslessTokens
import SequenceNotation.Proofs.Script.ReaderTotality
import SequenceNotation.Proofs.Script.TallTrees
import SequenceNotation.Proofs.Script.Ternary
import SequenceNotation.Proofs.Script.TextCap
import SequenceNotation.Proofs.Sequence.ChosenFunction
import SequenceNotation.Proofs.Sequence.Collecting
import SequenceNotation.Proofs.Sequence.Consultation
import SequenceNotation.Proofs.Sequence.CurrentValue
import SequenceNotation.Proofs.Sequence.Cycles
import SequenceNotation.Proofs.Sequence.DateOrder
import SequenceNotation.Proofs.Sequence.DateStart
import SequenceNotation.Proofs.Sequence.DateSteps
import SequenceNotation.Proofs.Sequence.DateText
import SequenceNotation.Proofs.Sequence.DrawRange
import SequenceNotation.Proofs.Sequence.ExactSubstitution
import SequenceNotation.Proofs.Sequence.FailingExpression
import SequenceNotation.Proofs.Sequence.History
import SequenceNotation.Proofs.Sequence.Integers
import SequenceNotation.Proofs.Sequence.ItemPlaces
import SequenceNotation.Proofs.Sequence.ItemSearch
import SequenceNotation.Proofs.Sequence.LiteralValue
import SequenceNotation.Proofs.Sequence.PrintedSign
import SequenceNotation.Proofs.Sequence.SelectedText
import SequenceNotation.Proofs.Sequence.StartWord
