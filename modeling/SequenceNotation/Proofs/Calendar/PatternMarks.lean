import Mathlib.Data.List.Infix
import Mathlib.Data.List.TakeDrop
import Mathlib.Data.List.TakeWhile
import Mathlib.Tactic.ByContra
import SequenceNotation.Calendar.Reading

/-!
# Readers of dates that keep apart

A date is read by the first of several readers that takes the text.  Digits, blanks and signs aside, a reader
leaves no choice for the characters of a text: a pattern takes exactly its own marks, and a timestamp has marks
behind its seconds, where no pattern has any.  So no two readers take the same text, and their order does not
matter.
-/

namespace SequenceNotation.Calendar

open SequenceNotation.Text

/-! ### The marks of a text -/

/-- Whether a character tells the readers apart: it is no digit, no blank and no sign. -/
def isMark (c : Char) : Bool :=
  !(c.isDigit || isBlank c || c = '-' || c = '+')

/-- The characters of a text that tell the readers apart. -/
def marksIn (text : List Char) : List Char :=
  text.filter isMark

theorem marksIn_append (text text' : List Char) : marksIn (text ++ text') = marksIn text ++ marksIn text' :=
  List.filter_append ..

theorem marksIn_of_forall {text : List Char} (h : ∀ c ∈ text, isMark c = false) : marksIn text = [] :=
  List.filter_eq_nil_iff.2 fun c hc => Bool.eq_false_iff.1 (h c hc)

theorem isMark_of_isDigit {c : Char} (h : c.isDigit = true) : isMark c = false := by
  simp [isMark, h]

theorem isMark_of_isBlank {c : Char} (h : isBlank c = true) : isMark c = false := by
  simp [isMark, h]

variable {text rest : List Char}

theorem marksIn_trimLeft (text : List Char) : marksIn (trimLeft text) = marksIn text := by
  have hblanks : marksIn (text.takeWhile isBlank) = [] :=
    marksIn_of_forall fun _ hc => isMark_of_isBlank (List.mem_takeWhile_imp hc)
  have hsplit : marksIn (text.takeWhile isBlank ++ text.dropWhile isBlank) = marksIn text := by
    rw [List.takeWhile_append_dropWhile]
  rw [← hsplit, marksIn_append, hblanks]
  rfl

theorem marksIn_readDigits? {least most n : Nat} (h : readDigits? least most text = some (n, rest)) :
    marksIn text = marksIn rest := by
  unfold readDigits? at h
  generalize hdigits : (text.take most).takeWhile Char.isDigit = digits at h
  dsimp only at h
  split at h
  · cases h
  · cases h
    -- the digits are the start of the text, whatever the greatest count is
    have hprefix : digits <+: text := hdigits ▸ (List.takeWhile_prefix _).trans (List.take_prefix ..)
    have hnone : marksIn digits = [] := by
      refine marksIn_of_forall fun c hc => isMark_of_isDigit ?_
      rw [← hdigits] at hc
      exact List.mem_takeWhile_imp hc
    calc marksIn text = marksIn (digits ++ text.drop digits.length) :=
          congrArg marksIn (List.prefix_append_drop hprefix)
      _ = marksIn (text.drop digits.length) := by
          rw [marksIn_append, hnone, List.nil_append]

theorem eq_of_dropChar? {c : Char} (h : dropChar? c text = some rest) : text = c :: rest := by
  cases text with
  | nil => cases h
  | cons d tail =>
    obtain ⟨hc, hrest⟩ := Option.ite_none_right_eq_some.1 h
    cases hrest
    rw [hc]

theorem marksIn_dropChar? {c : Char} (h : dropChar? c text = some rest) :
    marksIn text = marksIn [c] ++ marksIn rest := by
  rw [eq_of_dropChar? h, ← marksIn_append]
  rfl

theorem marksIn_readYear? {year : Int} (h : readYear? text = some (year, rest)) : marksIn text = marksIn rest := by
  -- a sign is no mark
  have hsign {sign : Char} (hsign : isMark sign = false) (tail : List Char) : marksIn (sign :: tail) = marksIn tail :=
    List.filter_cons_of_neg (Bool.eq_false_iff.1 hsign)
  unfold readYear? at h
  split at h
  all_goals
    obtain ⟨⟨n, tail⟩, hdigits, heq⟩ := Option.map_eq_some_iff.1 h
    cases heq
  · exact (hsign (by decide) _).trans (marksIn_readDigits? hdigits)
  · exact (hsign (by decide) _).trans (marksIn_readDigits? hdigits)
  · exact marksIn_readDigits? hdigits

/-! ### What a pattern takes -/

/-- The mark that a piece takes, if any. -/
def DatePiece.marks : DatePiece → List Char
  | mark c => marksIn [c]
  | _ => []

theorem marksIn_readPiece? {piece : DatePiece} {fields fields' : DateFields}
    (h : readPiece? piece fields text = some (fields', rest)) : marksIn text = piece.marks ++ marksIn rest := by
  cases piece with
  | mark c =>
    obtain ⟨tail, hdrop, heq⟩ := Option.map_eq_some_iff.1 h
    cases heq
    exact marksIn_dropChar? hdrop
  | blanks =>
    cases h
    exact (marksIn_trimLeft text).symm
  | year =>
    obtain ⟨⟨n, tail⟩, hyear, heq⟩ := Option.map_eq_some_iff.1 h
    cases heq
    rw [← marksIn_trimLeft text, marksIn_readYear? hyear]
    rfl
  | _ =>
    obtain ⟨⟨n, tail⟩, hdigits, heq⟩ := Option.map_eq_some_iff.1 h
    cases heq
    rw [← marksIn_trimLeft text, marksIn_readDigits? hdigits]
    rfl

/-- What a pattern takes has its marks and no others. -/
theorem marksIn_readPieces? {pieces : List DatePiece} {fields fields' : DateFields}
    (h : readPieces? pieces fields text = some fields') : marksIn text = pieces.flatMap DatePiece.marks := by
  induction pieces generalizing fields text with
  | nil =>
    unfold readPieces? at h
    split at h
    · rename_i hempty
      rw [hempty]
      rfl
    · cases h
  | cons piece pieces ih =>
    obtain ⟨⟨fields, rest⟩, hpiece, hpieces⟩ := Option.bind_eq_some_iff.1 h
    rw [marksIn_readPiece? hpiece, ih hpieces, List.flatMap_cons]

/-! ### What a timestamp is -/

theorem marksIn_ne_nil_of_isOffset (h : isOffset text = true) : marksIn text ≠ [] := by
  unfold isOffset at h
  split at h
  · -- a letter is a mark
    rcases Bool.or_eq_true_iff.1 h with hz | hz
    all_goals
      rw [of_decide_eq_true hz]
      decide
  · -- so is the one between the hours and the minutes
    rename_i sign tail _
    obtain ⟨-, hread⟩ := Bool.and_eq_true_iff.1 h
    obtain ⟨⟨hours, rest⟩, hhours, hread⟩ := Option.bind_eq_some_iff.1
      (Option.getD_eq_iff.1 hread |>.resolve_right (by simp))
    obtain ⟨rest', hcolon, -⟩ := Option.bind_eq_some_iff.1 hread
    have hmarks : marksIn (sign :: tail) = marksIn [sign] ++ (marksIn [':'] ++ marksIn rest') := by
      rw [← marksIn_dropChar? hcolon, ← marksIn_readDigits? hhours, ← marksIn_append]
      rfl
    have hcolon : marksIn [':'] = [':'] := by decide
    rw [hmarks, hcolon]
    simp
  · cases h

theorem isSuffix_of_dropFraction? (h : dropFraction? text = some rest) : rest <:+ text := by
  unfold dropFraction? at h
  split at h
  · rename_i tail
    split at h
    · cases h
    · rename_i rest' _ hspan
      cases h
      rw [List.span_eq_takeWhile_dropWhile] at hspan
      have hdrop : tail.dropWhile Char.isDigit = rest := congrArg Prod.snd hspan
      rw [← hdrop]
      exact (List.dropWhile_suffix _).trans (List.suffix_cons ..)
  · cases h
    exact List.suffix_refl _

/-- With a fraction in front of it or without, an offset has a mark. -/
theorem marksIn_ne_nil_of_dropFraction? (hfraction : dropFraction? text = some rest) (hzone : isOffset rest = true) :
    marksIn text ≠ [] := by
  obtain ⟨front, hsuffix⟩ := isSuffix_of_dropFraction? hfraction
  rw [← hsuffix, marksIn_append]
  exact List.append_ne_nil_of_right_ne_nil _ (marksIn_ne_nil_of_isOffset hzone)

/-- In front of the hours there is a letter, which is a mark, or a blank, which is none. -/
theorem exists_marksIn_separator
    (h : (dropChar? 'T' text <|> dropChar? 't' text <|> dropChar? ' ' text) = some rest) :
    ∃ separator ∈ [[], ['T'], ['t']], marksIn text = separator ++ marksIn rest := by
  cases hT : dropChar? 'T' text with
  | some rest =>
    rw [hT] at h
    cases h
    exact ⟨['T'], by decide, marksIn_dropChar? hT⟩
  | none =>
    rw [hT] at h
    cases ht : dropChar? 't' text with
    | some rest =>
      rw [ht] at h
      cases h
      exact ⟨['t'], by decide, marksIn_dropChar? ht⟩
    | none =>
      rw [ht] at h
      exact ⟨[], by decide, marksIn_dropChar? (c := ' ') h⟩

/-- A timestamp has marks behind its seconds, and at most a letter in front of its hours. -/
theorem marksIn_readTimestamp? {moment : DateTime} (h : readTimestamp? text = some moment) :
    ∃ separator ∈ [[], ['T'], ['t']], ∃ offset, offset ≠ [] ∧ marksIn text = separator ++ ':' :: ':' :: offset := by
  obtain ⟨⟨_, rest⟩, hyear, h⟩ := Option.bind_eq_some_iff.1 h
  obtain ⟨_, hdash, h⟩ := Option.bind_eq_some_iff.1 h
  obtain ⟨⟨_, rest⟩, hmonth, h⟩ := Option.bind_eq_some_iff.1 h
  obtain ⟨_, hdash', h⟩ := Option.bind_eq_some_iff.1 h
  obtain ⟨⟨_, behindDay⟩, hday, h⟩ := Option.bind_eq_some_iff.1 h
  obtain ⟨behindSeparator, hseparator, h⟩ := Option.bind_eq_some_iff.1 h
  obtain ⟨⟨_, rest⟩, hhour, h⟩ := Option.bind_eq_some_iff.1 h
  obtain ⟨_, hcolon, h⟩ := Option.bind_eq_some_iff.1 h
  obtain ⟨⟨_, rest⟩, hminute, h⟩ := Option.bind_eq_some_iff.1 h
  obtain ⟨_, hcolon', h⟩ := Option.bind_eq_some_iff.1 h
  obtain ⟨⟨_, behindSecond⟩, hsecond, h⟩ := Option.bind_eq_some_iff.1 h
  obtain ⟨zone, hfraction, h⟩ := Option.bind_eq_some_iff.1 h
  dsimp only at *
  -- Of what stands between the numbers the dashes are no marks, and the colons are.
  have hdashMark : marksIn ['-'] = [] := by decide
  have hcolonMark : marksIn [':'] = [':'] := by decide
  have hdate : marksIn text = marksIn behindDay := by
    rw [marksIn_readDigits? hyear, marksIn_dropChar? hdash, hdashMark, marksIn_readDigits? hmonth,
      marksIn_dropChar? hdash', hdashMark, marksIn_readDigits? hday]
    rfl
  have htime : marksIn behindSeparator = ':' :: ':' :: marksIn behindSecond := by
    rw [marksIn_readDigits? hhour, marksIn_dropChar? hcolon, hcolonMark, marksIn_readDigits? hminute,
      marksIn_dropChar? hcolon', hcolonMark, marksIn_readDigits? hsecond]
    rfl
  have hzone : isOffset zone = true := by
    by_contra hno
    rw [if_neg hno] at h
    cases h
  obtain ⟨separator, hmem, hmarks⟩ := exists_marksIn_separator hseparator
  exact ⟨separator, hmem, marksIn behindSecond, marksIn_ne_nil_of_dropFraction? hfraction hzone,
    by rw [hdate, hmarks, htime]⟩

/-! ### The readers in their order -/

/-- Reads a text as a pattern says. -/
def readPattern? (pattern : List DatePiece) (text : List Char) : Option DateTime :=
  (readPieces? pattern {} text).bind DateFields.moment?

/-- Everything that reads a date, in the order in which it is tried. -/
def dateReaders : List (List Char → Option DateTime) :=
  readTimestamp? :: datePatterns.map readPattern?

/-- The first reader counts that takes the text between the blanks at its ends. -/
theorem readDate?_eq (text : String) : readDate? text = dateReaders.findSome? fun reader => reader (trim text.toList) := by
  unfold readDate? dateReaders
  rw [List.findSome?_cons, List.findSome?_map]
  dsimp only
  cases readTimestamp? (trim text.toList) <;> rfl

theorem marksIn_readPattern? {pattern : List DatePiece} (h : (readPattern? pattern text).isSome = true) :
    marksIn text = pattern.flatMap DatePiece.marks := by
  obtain ⟨moment, hmoment⟩ := Option.isSome_iff_exists.1 h
  obtain ⟨fields, hfields, -⟩ := Option.bind_eq_some_iff.1 hmoment
  exact marksIn_readPieces? hfields

theorem readTimestamp?_of_readPattern? {pattern : List DatePiece} (hpattern : pattern ∈ datePatterns)
    (h : (readPattern? pattern text).isSome = true) : readTimestamp? text = none := by
  have hmarks := marksIn_readPattern? h
  rw [Option.eq_none_iff_forall_ne_some]
  intro moment hmoment
  obtain ⟨separator, hseparator, offset, hoffset, hboth⟩ := marksIn_readTimestamp? hmoment
  rw [hboth] at hmarks
  have hall : datePatterns.map (·.flatMap DatePiece.marks) =
      [['T', ':', ':'], [':', ':'], ['T', ':'], [], ['/', '/'], ['.', '.']] := by decide
  have hmem : separator ++ ':' :: ':' :: offset ∈ datePatterns.map (·.flatMap DatePiece.marks) :=
    hmarks ▸ List.mem_map_of_mem hpattern
  rw [hall] at hmem
  simp only [List.mem_cons, List.not_mem_nil, or_false] at hseparator
  -- no pattern has a third mark behind its colons
  rcases hseparator with rfl | rfl | rfl
  all_goals simp [hoffset] at hmem

/-- No two readers take the same text. -/
theorem pairwise_dateReaders :
    dateReaders.Pairwise fun earlier later => ∀ text, (later text).isSome = true → earlier text = none := by
  have hmarks : datePatterns.Pairwise fun earlier later =>
      earlier.flatMap DatePiece.marks ≠ later.flatMap DatePiece.marks := by decide
  refine List.pairwise_cons.2 ⟨?_, List.pairwise_map.2 (hmarks.imp fun hne text hlater => ?_)⟩
  · intro reader hreader text hlater
    obtain ⟨pattern, hpattern, rfl⟩ := List.mem_map.1 hreader
    exact readTimestamp?_of_readPattern? hpattern hlater
  · -- two patterns that took one text would both have its marks
    rw [← Option.not_isSome_iff_eq_none]
    intro hearlier
    exact hne ((marksIn_readPattern? hearlier).symm.trans (marksIn_readPattern? hlater))

/-- What one reader takes is the date of the text, wherever the reader stands. -/
theorem findSome?_dateReaders {reader : List Char → Option DateTime} (hreader : reader ∈ dateReaders)
    {moment : DateTime} (h : reader text = some moment) :
    (dateReaders.findSome? fun reader => reader text) = some moment := by
  obtain ⟨earlier, later, hsplit⟩ := List.append_of_mem hreader
  have hapart := pairwise_dateReaders
  rw [hsplit] at hapart
  have hnone : (earlier.findSome? fun reader => reader text) = none := by
    refine List.findSome?_eq_none_iff.2 fun other hother => ?_
    exact (List.pairwise_append.1 hapart).2.2 other hother reader (.head _) text (by rw [h]; rfl)
  rw [hsplit, List.findSome?_append, hnone, List.findSome?_cons, h]
  rfl

end SequenceNotation.Calendar
