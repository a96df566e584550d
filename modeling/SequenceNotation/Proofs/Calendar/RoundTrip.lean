import SequenceNotation.Calendar.Reading
import SequenceNotation.Proofs.Number.RoundTrip
import SequenceNotation.Proofs.Number.Width
import SequenceNotation.Proofs.Script.Lookahead
import SequenceNotation.Proofs.Text.Blank

/-!
# Written dates read back

A year, a month and a day with marks between them are read as midnight of this day; only years beyond four
digits are not read.  A template without a token for the time of the day writes midnight as any other moment of
the day.
-/

namespace SequenceNotation

open SequenceNotation.Number SequenceNotation.Script SequenceNotation.Text

/-! ### Dates written with a template -/

namespace Calendar

variable {moment : DateTime} {language : String} {c : Char} {rest : List Char}

theorem renderTemplate_token {length : Nat} {part : DatePart}
    (h : dateTokenAt? (c :: rest) = some (length, part)) :
    renderTemplate moment language (c :: rest) =
      part.text moment language ++ renderTemplate moment language (rest.drop (length - 1)) := by
  rw [renderTemplate, h]

theorem renderTemplate_mark (h : dateTokenAt? (c :: rest) = none) :
    renderTemplate moment language (c :: rest) = c :: renderTemplate moment language rest := by
  rw [renderTemplate, h]

theorem isDigit_paddedNumber {width n : Nat} : ∀ c ∈ paddedNumber width n, c.isDigit = true :=
  isDigit_zeroPadded fun _ => isDigit_decimalDigits

theorem digitsValue_paddedNumber (width n : Nat) : digitsValue (paddedNumber width n) = n := by
  unfold paddedNumber
  rw [digitsValue_zeroPadded, digitsValue_decimalDigits]

/-- A number that is not wider than its padding has its width. -/
theorem length_paddedNumber {width n : Nat} (hwidth : 0 < width) (h : n < 10 ^ width) :
    (paddedNumber width n).length = width := by
  have hdigits := length_decimalDigits_le hwidth h
  unfold paddedNumber
  rw [length_zeroPadded]
  omega

theorem width_le_length_paddedNumber (width n : Nat) : width ≤ (paddedNumber width n).length := by
  unfold paddedNumber
  rw [length_zeroPadded]
  omega

theorem exists_paddedNumber {width : Nat} (hwidth : 0 < width) (n : Nat) :
    ∃ d rest, paddedNumber width n = d :: rest ∧ d.isDigit = true := by
  have hlength := width_le_length_paddedNumber width n
  obtain ⟨d, rest, hdigits⟩ := List.exists_cons_of_length_pos (Nat.lt_of_lt_of_le hwidth hlength)
  exact ⟨d, rest, hdigits, isDigit_paddedNumber d (by rw [hdigits]; exact .head _)⟩

/-- A year is a sign, if it is negative, and digits. -/
theorem yearText_eq (year : Int) :
    yearText year = Double.signed (year < 0) (paddedNumber (if year < 0 then 3 else 4) year.natAbs) := by
  unfold yearText Double.signed
  by_cases h : year < 0 <;> simp [h]

/-! ### Dates that are read -/

/-- As many digits are read as there may be. -/
theorem readDigits?_append {least most : Nat} {digits tail : List Char} (hall : ∀ c ∈ digits, c.isDigit = true)
    (htail : tail.head?.any Char.isDigit = false) (hleast : least ≤ min most digits.length) :
    readDigits? least most (digits ++ tail) =
      some (digitsValue (digits.take most), digits.drop most ++ tail) := by
  -- the cut at `most` may fall into the digits or behind them, and finds no more digits there
  have hnone (count : Nat) : (tail.take count).takeWhile Char.isDigit = [] := by
    cases tail with
    | nil => simp
    | cons c tail =>
      have hc : ¬c.isDigit = true := by simpa using htail
      cases count with
      | zero => rfl
      | succ count => exact List.takeWhile_cons_of_neg hc
  have hread : ((digits ++ tail).take most).takeWhile Char.isDigit = digits.take most := by
    rw [List.take_append, List.takeWhile_append_of_pos fun c hc => hall c (List.mem_of_mem_take hc), hnone,
      List.append_nil]
  have hdrop : (digits ++ tail).drop (digits.take most).length = digits.drop most ++ tail := by
    rw [List.length_take, List.drop_append]
    rcases Nat.le_total most digits.length with h | h
    · rw [Nat.min_eq_left h, Nat.sub_eq_zero_of_le h, List.drop_zero]
    · rw [Nat.min_eq_right h, Nat.sub_self, List.drop_zero, List.drop_of_length_le h, List.drop_length]
  unfold readDigits?
  dsimp only
  rw [hread, hdrop, if_neg (by rw [List.length_take]; omega)]

/-- A number of two digits is read as such. -/
theorem readDigits?_paddedNumber {least n : Nat} {tail : List Char} (hleast : least ≤ 2) (h : n < 100)
    (htail : tail.head?.any Char.isDigit = false) :
    readDigits? least 2 (paddedNumber 2 n ++ tail) = some (n, tail) := by
  have hlength : (paddedNumber 2 n).length = 2 := length_paddedNumber (by decide) h
  rw [readDigits?_append isDigit_paddedNumber htail (by omega), List.take_of_length_le (by omega),
    List.drop_of_length_le (by omega), digitsValue_paddedNumber]
  rfl

/-- A year without a sign has four digits at most. -/
theorem readYear?_of_isDigit {c : Char} (hc : c.isDigit = true) (rest : List Char) :
    readYear? (c :: rest) = (readDigits? 1 4 (c :: rest)).map fun (n, rest) => ((n : Int), rest) := by
  unfold readYear?
  split
  · rename_i heq
    cases heq
    cases hc
  · rename_i heq
    cases heq
    cases hc
  · rfl

/-- A year that has a sign or no more than four digits is read as it is. -/
theorem readYear?_yearText {year : Int} (h : year ≤ 9999) {tail : List Char}
    (htail : tail.head?.any Char.isDigit = false) : readYear? (yearText year ++ tail) = some (year, tail) := by
  unfold yearText
  split
  · -- behind a sign there may be as many digits as the text is long
    have hlength := width_le_length_paddedNumber 3 year.natAbs
    have hcount : (paddedNumber 3 year.natAbs).length ≤ (paddedNumber 3 year.natAbs ++ tail).length := by
      rw [List.length_append]
      omega
    have hyear : -((year.natAbs : Nat) : Int) = year := by omega
    rw [List.cons_append, readYear?, readDigits?_append isDigit_paddedNumber htail (by omega),
      List.take_of_length_le hcount, List.drop_of_length_le hcount, digitsValue_paddedNumber]
    exact congrArg (fun year => some (year, tail)) hyear
  · obtain ⟨d, rest, hdigits, hd⟩ := exists_paddedNumber (show 0 < 4 by decide) year.natAbs
    have hlength : (paddedNumber 4 year.natAbs).length = 4 := length_paddedNumber (by decide) (by omega)
    have hread := readYear?_of_isDigit hd (rest ++ tail)
    rw [← List.cons_append, ← hdigits, readDigits?_append isDigit_paddedNumber htail (by omega),
      List.take_of_length_le (by omega), List.drop_of_length_le (by omega), digitsValue_paddedNumber] at hread
    have hyear : ((year.natAbs : Nat) : Int) = year := by omega
    rw [hread]
    exact congrArg (fun year => some (year, tail)) hyear

theorem trimLeft_paddedNumber {width : Nat} (hwidth : 0 < width) (n : Nat) (tail : List Char) :
    trimLeft (paddedNumber width n ++ tail) = paddedNumber width n ++ tail := by
  obtain ⟨d, rest, hdigits, hd⟩ := exists_paddedNumber hwidth n
  apply trimLeft_of_head
  rw [hdigits]
  simp [isBlank_of_isDigit hd]

theorem trimLeft_yearText (year : Int) (tail : List Char) :
    trimLeft (yearText year ++ tail) = yearText year ++ tail := by
  unfold yearText
  split
  · rfl
  · exact trimLeft_paddedNumber (by decide) _ tail

/-- The text of a year, a month and a day with marks between them. -/
def dateText (year : Int) (month day : Nat) : List Char :=
  yearText year ++ '-' :: (paddedNumber 2 month ++ '-' :: paddedNumber 2 day)

/-- What reads a year, a month and a day with marks between them has read the whole date. -/
theorem readPieces?_dateText {year : Int} {month day : Nat} (hyear : year ≤ 9999) (hmonth : month < 100)
    (hday : day < 100) (pieces : List DatePiece) :
    readPieces? (.year :: .mark '-' :: .month :: .mark '-' :: .day :: pieces) {} (dateText year month day) =
      readPieces? pieces { year, month, day } [] := by
  have hsecond := @readDigits?_paddedNumber 1 day [] (by decide) hday rfl
  rw [List.append_nil] at hsecond
  have hfirst := @readDigits?_paddedNumber 1 month ('-' :: paddedNumber 2 day) (by decide) hmonth rfl
  have hread := @readYear?_yearText year hyear ('-' :: (paddedNumber 2 month ++ '-' :: paddedNumber 2 day)) rfl
  have htrim := trimLeft_paddedNumber (show 0 < 2 by decide) day []
  rw [List.append_nil] at htrim
  simp only [readPieces?, readPiece?, dateText, trimLeft_yearText, hread, Option.map_some, Option.bind_eq_bind,
    Option.bind_some, dropChar?, if_true, trimLeft_paddedNumber (show 0 < 2 by decide), hfirst, htrim, hsecond]

/-- A year of more than four digits leaves a digit behind the fourth. -/
theorem exists_drop_yearText {year : Int} (h : ¬year ≤ 9999) {count : Nat} (hcount : count ≤ 4) :
    ∃ d rest, (yearText year).drop count = d :: rest ∧ d.isDigit = true := by
  -- the padding adds nothing to so many digits
  have hdigits : 4 < (decimalDigits year.natAbs).length := by
    by_contra hshort
    have hlt := lt_ten_pow_digitCount year.natAbs
    have hle : 10 ^ digitCount year.natAbs ≤ 10 ^ 4 := Nat.pow_le_pow_right (by decide) (Nat.le_of_not_lt hshort)
    omega
  have hlength : ((yearText year).drop count).length ≠ 0 := by
    rw [yearText, if_neg (by omega), List.length_drop, paddedNumber, length_zeroPadded]
    omega
  obtain ⟨d, rest, hdrop⟩ := List.exists_cons_of_length_pos (Nat.pos_of_ne_zero hlength)
  refine ⟨d, rest, hdrop, ?_⟩
  have hd : d ∈ yearText year := by
    apply List.mem_of_mem_drop
    rw [hdrop]
    exact .head _
  rw [yearText, if_neg (by omega)] at hd
  exact isDigit_paddedNumber d hd

theorem dropChar?_of_isDigit {c d : Char} (hd : d.isDigit = true) (hc : c.isDigit = false) (rest : List Char) :
    dropChar? c (d :: rest) = none := by
  have hne : d ≠ c := by
    rintro rfl
    rw [hd] at hc
    cases hc
  exact if_neg hne

/-- The digits of a year without a sign are read up to a count. -/
theorem readDigits?_yearText {year : Int} (h : ¬year < 0) {least most : Nat} (hleast : least ≤ min most 4)
    {tail : List Char} (htail : tail.head?.any Char.isDigit = false) :
    readDigits? least most (yearText year ++ tail) =
      some (digitsValue ((yearText year).take most), (yearText year).drop most ++ tail) := by
  have hlength := width_le_length_paddedNumber 4 year.natAbs
  have htext : yearText year = paddedNumber 4 year.natAbs := if_neg h
  rw [htext]
  exact readDigits?_append isDigit_paddedNumber htail (by omega)

/-- A date alone is no timestamp. -/
theorem readTimestamp?_dateText (year : Int) {month day : Nat} (hmonth : month < 100) (hday : day < 100) :
    readTimestamp? (dateText year month day) = none := by
  rw [Option.eq_none_iff_forall_ne_some]
  intro moment h
  -- the parts are taken off one by one, up to the one that is missing
  obtain ⟨⟨_, rest⟩, hyear, h⟩ := Option.bind_eq_some_iff.1 h
  obtain ⟨_, hmark, h⟩ := Option.bind_eq_some_iff.1 h
  by_cases hneg : year < 0
  · -- a sign is no digit
    unfold dateText yearText at hyear
    rw [if_pos hneg] at hyear
    cases hyear
  · unfold dateText at hyear
    rw [readDigits?_yearText hneg (by decide) rfl] at hyear
    cases hyear
    by_cases hlong : year ≤ 9999
    · -- the text ends where the time of the day is expected
      have hdrop : (yearText year).drop 4 = [] := by
        rw [yearText, if_neg hneg]
        exact List.drop_of_length_le (Nat.le_of_eq (length_paddedNumber (by decide) (by omega)))
      rw [hdrop] at hmark
      cases hmark
      obtain ⟨⟨_, rest⟩, hread, h⟩ := Option.bind_eq_some_iff.1 h
      rw [readDigits?_paddedNumber (by decide) hmonth rfl] at hread
      cases hread
      obtain ⟨_, hmark, h⟩ := Option.bind_eq_some_iff.1 h
      cases hmark
      obtain ⟨⟨_, rest⟩, hread, h⟩ := Option.bind_eq_some_iff.1 h
      rw [← List.append_nil (paddedNumber 2 day), readDigits?_paddedNumber (by decide) hday rfl] at hread
      cases hread
      cases h
    · obtain ⟨d, more, hdrop, hd⟩ := exists_drop_yearText hlong (Nat.le_refl 4)
      rw [hdrop, List.cons_append, dropChar?_of_isDigit hd (by decide)] at hmark
      cases hmark

/-! A year of more than four digits does not end where a pattern ends it. -/

theorem readPieces?_year_of_long {year : Int} (h : ¬year ≤ 9999) {c : Char} (hc : c.isDigit = false)
    (fields : DateFields) (month day : Nat) (pieces : List DatePiece) :
    readPieces? (.year :: .mark c :: pieces) fields (dateText year month day) = none := by
  obtain ⟨d, rest, hdrop, hd⟩ := exists_drop_yearText h (Nat.le_refl 4)
  obtain ⟨e, more, hdigits, he⟩ := exists_drop_yearText h (Nat.zero_le 4)
  have hread := readYear?_of_isDigit he (more ++ '-' :: (paddedNumber 2 month ++ '-' :: paddedNumber 2 day))
  rw [← List.cons_append, ← hdigits, List.drop_zero, readDigits?_yearText (by omega) (by decide) rfl, hdrop] at hread
  simp only [readPieces?, readPiece?, dateText, trimLeft_yearText, hread, List.cons_append, Option.map_some,
    Option.bind_eq_bind, Option.bind_some, dropChar?_of_isDigit hd hc, Option.map_none, Option.bind_none]

theorem readPieces?_day_of_long {year : Int} (h : ¬year ≤ 9999) {c : Char} (hc : c.isDigit = false)
    (fields : DateFields) (month day : Nat) (pieces : List DatePiece) :
    readPieces? (.day :: .mark c :: pieces) fields (dateText year month day) = none := by
  obtain ⟨d, rest, hdrop, hd⟩ := exists_drop_yearText h (show 2 ≤ 4 by decide)
  have hread := @readDigits?_yearText year (by omega) 1 2 (by decide)
    ('-' :: (paddedNumber 2 month ++ '-' :: paddedNumber 2 day)) rfl
  rw [hdrop] at hread
  simp only [readPieces?, readPiece?, dateText, trimLeft_yearText, hread, List.cons_append, Option.map_some,
    Option.bind_eq_bind, Option.bind_some, dropChar?_of_isDigit hd hc, Option.map_none, Option.bind_none]

theorem isBlank_of_mem_dateText (year : Int) (month day : Nat) :
    ∀ c ∈ dateText year month day, isBlank c = false := by
  have hdigits (width n : Nat) : ∀ c ∈ paddedNumber width n, isBlank c = false := fun c hc =>
    isBlank_of_isDigit (isDigit_paddedNumber c hc)
  have hmark : isBlank '-' = false := by decide
  have hyear : ∀ c ∈ yearText year, isBlank c = false := by
    unfold yearText
    split
    · exact List.forall_mem_cons.2 ⟨hmark, hdigits _ _⟩
    · exact hdigits _ _
  unfold dateText
  simp only [List.forall_mem_append, List.forall_mem_cons]
  exact ⟨hyear, hmark, hdigits _ _, hmark, hdigits _ _⟩

/-- No month and no day has more than two digits. -/
theorem Date.lt_hundred (date : Date) : date.month < 100 ∧ date.day < 100 := by
  obtain ⟨-, hpos, hday⟩ := date.isDate
  unfold monthLength at hday
  split at hday
  · omega
  · have hlength : (monthLengths date.year).length = 12 := rfl
    have hmost : ∀ n ∈ monthLengths date.year, n ≤ 31 := by
      unfold monthLengths
      split <;> decide
    cases hfound : (monthLengths date.year)[date.month - 1]? with
    | none =>
      rw [hfound, Option.getD_none] at hday
      omega
    | some n =>
      obtain ⟨hplace, -⟩ := List.getElem?_eq_some_iff.1 hfound
      have hn := hmost n (List.mem_of_getElem? hfound)
      rw [hfound, Option.getD_some] at hday
      omega

/-- A date is read as midnight, unless its year has more than four digits. -/
theorem readDate?_dateText (date : Date) :
    readDate? (String.ofList (dateText date.year date.month date.day)) =
      if date.year ≤ 9999 then some { date } else none := by
  obtain ⟨hmonth, hday⟩ := date.lt_hundred
  unfold readDate?
  rw [String.toList_ofList, trim_of_forall (isBlank_of_mem_dateText _ _ _)]
  dsimp only
  rw [readTimestamp?_dateText date.year hmonth hday, Option.orElse_eq_orElse, Option.orElse_none]
  unfold datePatterns
  split
  · rename_i hyear
    have hmoment : DateFields.moment? { year := date.year, month := date.month, day := date.day } = some { date } := by
      have hdate : Date.of? date.year date.month date.day = some date := dif_pos date.isDate
      unfold DateFields.moment?
      rw [hdate]
      rfl
    -- the patterns in front of the fourth want a time of the day
    have hmark (fields : DateFields) (pieces : List DatePiece) : readPieces? (.mark 'T' :: pieces) fields [] = none := rfl
    have hblanks (fields : DateFields) (pieces : List DatePiece) :
        readPieces? (.blanks :: .hour :: pieces) fields [] = none := rfl
    have hend (fields : DateFields) : readPieces? [] fields [] = some fields := rfl
    simp only [List.findSome?_cons, readPieces?_dateText hyear hmonth hday, hmark, hblanks, hend, Option.bind_none,
      Option.bind_some, hmoment]
  · rename_i hyear
    have hdash : '-'.isDigit = false := by decide
    have hslash : '/'.isDigit = false := by decide
    have hpoint : '.'.isDigit = false := by decide
    simp only [List.findSome?_cons, readPieces?_year_of_long hyear hdash, readPieces?_year_of_long hyear hslash,
      readPieces?_day_of_long hyear hpoint, Option.bind_none, List.findSome?_nil]

/-! ### Templates without a time of the day -/

/-- Whether a part of a date is one of the time of the day. -/
def DatePart.isTime : DatePart → Bool
  | paddedHour | hour | paddedMinute | minute | paddedSecond | second => true
  | _ => false

/-- Whether a template has a token for the time of the day. -/
def showsTime : List Char → Bool
  | [] => false
  | c :: rest =>
    match dateTokenAt? (c :: rest) with
    | some (length, part) => part.isTime || showsTime (rest.drop (length - 1))
    | none => showsTime rest
termination_by template => template.length
decreasing_by all_goals simp only [List.length_drop, List.length_cons]; omega

theorem DatePart.text_midnight {part : DatePart} (h : part.isTime = false) (moment : DateTime) (language : String) :
    part.text { date := moment.date } language = part.text moment language := by
  cases part <;> first | rfl | cases h

/-- Without such a token the time of the day does not count. -/
theorem renderTemplate_midnight (moment : DateTime) (language : String) {template : List Char}
    (h : showsTime template = false) :
    renderTemplate { date := moment.date } language template = renderTemplate moment language template := by
  induction template using showsTime.induct with
  | case1 => rw [renderTemplate, renderTemplate]
  | case2 c rest length part htoken ih =>
    rw [showsTime, htoken] at h
    obtain ⟨hpart, hrest⟩ := Bool.or_eq_false_iff.1 h
    rw [renderTemplate_token htoken, renderTemplate_token htoken, DatePart.text_midnight hpart, ih hrest]
  | case3 c rest htoken ih =>
    rw [showsTime, htoken] at h
    rw [renderTemplate_mark htoken, renderTemplate_mark htoken, ih h]

end Calendar

end SequenceNotation
