import SequenceNotation.Pattern.Reading
import SequenceNotation.Proofs.Pattern.Expansion
import SequenceNotation.Proofs.Pattern.Words

/-!
# Escaped texts

A text that is escaped for a pattern refers to no name and is read character by character.  The pattern spells the
text itself.  Blanks that are removed from the escaped text are missing in the word.
-/

namespace SequenceNotation.Pattern

open SequenceNotation.Text

theorem escapeText_cons (c : Char) (rest : List Char) :
    escapeText (c :: rest) = (if isSpecial c then ['\\', c] else [c]) ++ escapeText rest :=
  rfl

/-- No brace stands at the start of an escaped text. -/
theorem referenceAt?_escapeText (text : List Char) : referenceAt? (escapeText text) = none := by
  cases text with
  | nil => rfl
  | cons c rest =>
    rw [escapeText_cons]
    split
    · rfl
    · rename_i hc
      have hbrace : c ≠ '\x7b' := by
        rintro rfl
        exact hc rfl
      unfold referenceAt?
      split
      · rename_i heq
        exact absurd (List.cons.inj heq).1 hbrace
      · rfl

theorem piecesBehind_escapeText (text : List Char) :
    piecesBehind 0 (escapeText text) = (escapeText text).map .char := by
  induction text with
  | nil => rfl
  | cons c rest ih =>
    have hplain : piecesBehind 0 (c :: escapeText rest) = .char c :: piecesBehind 0 (escapeText rest) := by
      rw [piecesBehind, referenceAt?_escapeText, ite_self]
    rw [escapeText_cons]
    split
    · show piecesBehind 0 ('\\' :: c :: escapeText rest) = _
      rw [piecesBehind, if_neg (by decide), hplain, ih]
      rfl
    · show piecesBehind 0 (c :: escapeText rest) = _
      rw [hplain, ih]
      rfl

theorem references_escapeText (text : List Char) : references (escapeText text) = [] := by
  rw [references, piecesBehind_escapeText, List.filterMap_map]
  exact List.filterMap_eq_nil_iff.2 fun _ _ => rfl

theorem expandPieces_map_char (inner : String → Option (List Char)) (text : List Char) :
    expandPieces inner (text.map .char) = some text := by
  induction text with
  | nil => rfl
  | cons c rest ih => exact congrArg (Option.map (c :: ·)) ih

theorem isBlank_of_isSpecial {c : Char} (h : isSpecial c = true) : isBlank c = false := by
  have hblanks : ∀ c ∈ "\\.+*?()|[]\x7b\x7d^$#&-~".toList, isBlank c = false :=
    forall_of_all (by decide)
  exact hblanks c (List.elem_iff.1 h)

/-- Removing blanks and escaping commute. -/
theorem withoutBlanks_escapeText (text : List Char) :
    withoutBlanks (escapeText text) = escapeText (withoutBlanks text) := by
  induction text with
  | nil => rfl
  | cons c rest ih =>
    rw [escapeText_cons, withoutBlanks, List.filter_append]
    show _ ++ withoutBlanks (escapeText rest) = _
    rw [ih]
    by_cases hc : isSpecial c
    · simp [hc, isBlank_of_isSpecial hc, withoutBlanks, escapeText_cons, show isBlank '\\' = false from rfl]
    · by_cases hblank : isBlank c <;> simp [hc, hblank, withoutBlanks, escapeText_cons]

/-! ### Reading an escaped text -/

/-- The items of a group for the characters of a text, last one first. -/
def textItems (text : List Char) : List Pattern :=
  (text.map fun c => .one (.literal c)).reverse

/-- These items one after the other spell the text. -/
theorem words?_textItems (text : List Char) : (sequenceOf (textItems text)).words? = some [text] := by
  rw [sequenceOf, textItems, List.foldl_reverse]
  induction text with
  | nil => rfl
  | cons c rest ih =>
    rw [List.map_cons, List.foldr_cons]
    split
    · rename_i hempty
      rw [hempty] at ih
      cases ih
      rfl
    · rw [words?, ih]
      rfl

namespace ReadingState

theorem readPlain_of_not_isSpecial {state : ReadingState} {c : Char} (h : ¬isSpecial c) :
    state.readPlain c = state.pushClass (.literal c) := by
  unfold readPlain
  split
  case h_13 => rfl
  all_goals exact absurd rfl h

theorem readEscaped_of_isSpecial {state : ReadingState} {c : Char} (h : isSpecial c) :
    state.readEscaped c = state.pushClass (.literal c) := by
  unfold readEscaped
  split
  case h_4 => rfl
  all_goals exact absurd h (by decide)

/-- An escaped text adds its characters to the innermost group. -/
theorem foldl_read_escapeText (text : List Char) (inner : Branches) (outer : List (Option String × Branches))
    (failed : Bool) :
    (escapeText text).foldl read { mode := .plain, inner, outer, failed } =
      { mode := .plain, inner := { inner with items := textItems text ++ inner.items }, outer, failed } := by
  induction text generalizing inner with
  | nil => rfl
  | cons c rest ih =>
    have hstep : (if isSpecial c then ['\\', c] else [c]).foldl read { mode := .plain, inner, outer, failed } =
        { mode := .plain, inner := { inner with items := .one (.literal c) :: inner.items }, outer, failed } := by
      split
      · rename_i hc
        have hread : ({ mode := .escaped, inner, outer, failed } : ReadingState).readEscaped c = _ :=
          readEscaped_of_isSpecial hc
        exact hread
      · rename_i hc
        exact readPlain_of_not_isSpecial hc
    rw [escapeText_cons, List.foldl_append, hstep, ih]
    simp [textItems]

end ReadingState

end SequenceNotation.Pattern
