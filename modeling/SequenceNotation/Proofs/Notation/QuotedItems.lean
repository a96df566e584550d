import SequenceNotation.Notation.ListLiteral
import SequenceNotation.Proofs.Text.Blank

/-!
# Lists of quoted items

A text without double quotes can be written as an item of a list in double quotes, with blanks around it.  Between its
quotes it may hold separators, brackets, apostrophes and line breaks.  A list that is written so is read as its texts:
the grammar of lists takes each item up to its closing quote, and the plain split at separators is not needed.
-/

namespace SequenceNotation.Notation

open SequenceNotation.Text

/-! ### How items are written -/

/-- A text in double quotes as an item of a list, with the blanks around the quotes and the separator that stands
behind it if another item follows. -/
structure QuotedItem where
  text : String
  before : List Char
  behind : List Char
  separator : Char
  text_ne : text ≠ ""
  trim_text : trim text.toList = text.toList
  quote_not_mem : '"' ∉ text.toList
  isBlank_before : ∀ c ∈ before, isBlank c
  isBlank_behind : ∀ c ∈ behind, isBlank c
  isSeparator_separator : isSeparator separator

/-- An item with its quotes and blanks. -/
def QuotedItem.written (item : QuotedItem) : List Char :=
  item.before ++ '"' :: (item.text.toList ++ '"' :: item.behind)

/-- Items with a separator behind each but the last. -/
def writtenItems : List QuotedItem → List Char
  | [] => []
  | [last] => last.written
  | item :: next :: rest => item.written ++ item.separator :: writtenItems (next :: rest)

/-- The list literal of some items. -/
def writtenList (items : List QuotedItem) : String :=
  String.ofList ('[' :: (writtenItems items ++ [']']))

example :
    writtenList
      [{ text := "it's [a, b];", before := [' '], behind := ['\n'], separator := ',', text_ne := by decide,
         trim_text := by decide, quote_not_mem := by decide, isBlank_before := forall_of_all (by decide),
         isBlank_behind := forall_of_all (by decide), isSeparator_separator := by decide }] =
      "[ \"it's [a, b];\"\n]" := by
  decide

/-! ### One item -/

theorem isBlank_eq_false_of_isSeparator {c : Char} (h : isSeparator c) : isBlank c = false := by
  have hc : c = ',' ∨ c = ';' := by simpa [isSeparator] using h
  rcases hc with rfl | rfl <;> decide

theorem ne_closing_of_isSeparator {c : Char} (h : isSeparator c) : c ≠ ']' := by
  rintro rfl
  exact absurd h (by decide)

/-- A quoted item ends at its own closing quote, whatever stands between the quotes. -/
theorem QuotedItem.quotedItem?_written (item : QuotedItem) {rest : List Char} (hrest : rest.head?.any isBlank = false) :
    quotedItem? '"' (item.written ++ rest) = some (item.text.toList, rest) := by
  have hinside : ∀ c ∈ item.text.toList, decide (c ≠ '"') = true := by
    intro c hc
    have hne : c ≠ '"' := fun heq => item.quote_not_mem (heq ▸ hc)
    simpa using hne
  have hopening : trimLeft (item.written ++ rest) = '"' :: (item.text.toList ++ '"' :: (item.behind ++ rest)) := by
    have hquote : isBlank '"' = false := by decide
    simp [trimLeft, written, List.dropWhile_append_of_pos item.isBlank_before, hquote]
  have hbehind : trimLeft (item.behind ++ rest) = rest := by
    rw [trimLeft, List.dropWhile_append_of_pos item.isBlank_behind]
    exact trimLeft_of_head hrest
  simp only [quotedItem?, hopening, if_true]
  rw [List.takeWhile_append_of_pos hinside, List.dropWhile_append_of_pos hinside]
  simp [hbehind]

theorem QuotedItem.readItem_written (item : QuotedItem) {rest : List Char} (hrest : rest.head?.any isBlank = false) :
    readItem (item.written ++ rest) = (item.text.toList, rest) := by
  simp [readItem, item.quotedItem?_written hrest]

/-! ### All items -/

/-- What follows an item decides whether the list ends, goes on or is none. -/
theorem readItems?_of_readItem {text item rest : List Char} {c : Char} (h : readItem text = (item, c :: rest)) :
    readItems? text =
      if c = ']' ∧ rest = [] then some [item]
      else if isSeparator c then (readItems? rest).map (item :: ·)
      else none := by
  rw [readItems?]
  split
  · rename_i hnil
    simp [h] at hnil
  · rename_i d behind hcons
    obtain ⟨rfl, rfl⟩ : c = d ∧ rest = behind := by simpa [h] using hcons
    simp [h]

/-- The grammar of lists takes quoted items up to the closing bracket. -/
theorem readItems?_writtenItems (item : QuotedItem) (rest : List QuotedItem) :
    readItems? (writtenItems (item :: rest) ++ [']']) = some ((item :: rest).map (·.text.toList)) := by
  induction rest generalizing item with
  | nil =>
    have hread : readItem (item.written ++ [']']) = (item.text.toList, [']']) := item.readItem_written (by decide)
    simp [writtenItems, readItems?_of_readItem hread]
  | cons next rest ih =>
    have hseparator := item.isSeparator_separator
    have hread : readItem (writtenItems (item :: next :: rest) ++ [']']) =
        (item.text.toList, item.separator :: (writtenItems (next :: rest) ++ [']'])) := by
      rw [writtenItems, List.append_assoc]
      exact item.readItem_written (by simpa using isBlank_eq_false_of_isSeparator hseparator)
    have hopen : item.separator ≠ ']' := ne_closing_of_isSeparator hseparator
    simp [readItems?_of_readItem hread, hopen, hseparator, ih next]

/-- The texts of items have nothing to clean: no blanks at their ends, and none is empty. -/
theorem cleanItems_texts (items : List QuotedItem) : cleanItems (items.map (·.text.toList)) = items.map (·.text) := by
  have htrim : (items.map (·.text.toList)).map trim = items.map (·.text.toList) := by
    simp [QuotedItem.trim_text]
  have hkept : (items.map (·.text.toList)).filter (· ≠ []) = items.map (·.text.toList) := by
    simp [List.filter_eq_self, QuotedItem.text_ne]
  rw [cleanItems, htrim, hkept]
  simp

/-- A list of quoted items is read as their texts, in order. -/
theorem readListLiteral_writtenList (items : List QuotedItem) : readListLiteral (writtenList items) = items.map (·.text) := by
  cases items with
  | nil => decide +kernel
  | cons item rest =>
    simp only [readListLiteral, writtenList, String.toList_ofList]
    -- the grammar accepts the literal, so the plain split behind `getD` is not taken
    rw [readItems?_writtenItems, Option.getD_some, cleanItems_texts]

end SequenceNotation.Notation
