import SequenceNotation.Proofs.Calendar.PatternMarks
import SequenceNotation.Proofs.Calendar.RoundTrip

/-!
# The notations of dates

Each pattern that reads dates has a template that writes them: a token for every number, and the marks as they
are.  Numbers and separators take turns in a pattern, so a token does not run into the next one when the template
is written, and a number ends where its separator begins when the text is read.  What a template writes is read
back by its pattern, and since the readers keep apart, by no other.
-/

namespace SequenceNotation.Calendar

open SequenceNotation.Number SequenceNotation.Text

/-! ### Patterns as templates -/

namespace DatePiece

/-- What stands for a piece in a template. -/
def template : DatePiece → List Char
  | year => ['y', 'y', 'y', 'y']
  | month => ['M', 'M']
  | day => ['d', 'd']
  | hour => ['H', 'H']
  | minute => ['m', 'm']
  | second => ['s', 's']
  | mark c => [c]
  | blanks => [' ']

/-- What the template writes for a piece. -/
def text (moment : DateTime) : DatePiece → List Char
  | year => yearText moment.date.year
  | month => paddedNumber 2 moment.date.month
  | day => paddedNumber 2 moment.date.day
  | hour => paddedNumber 2 moment.hour
  | minute => paddedNumber 2 moment.minute
  | second => paddedNumber 2 moment.second
  | mark c => [c]
  | blanks => [' ']

/-- What is read when a piece is read from what was written for it. -/
def fill (moment : DateTime) (fields : DateFields) : DatePiece → DateFields
  | year => { fields with year := moment.date.year }
  | month => { fields with month := moment.date.month }
  | day => { fields with day := moment.date.day }
  | hour => { fields with hour := moment.hour }
  | minute => { fields with minute := moment.minute }
  | second => { fields with second := moment.second }
  | mark _ => fields
  | blanks => fields

def isNumber : DatePiece → Bool
  | mark _ => false
  | blanks => false
  | _ => true

end DatePiece

/-- What stands between the numbers of a date: no digits, and nothing that a token begins with. -/
def separators : List Char :=
  ['-', '/', '.', ':', 'T', ' ']

/-- Numbers and separators take turns. -/
structure WellSpaced (pieces : List DatePiece) : Prop where
  alternates : pieces.IsChain fun piece next => piece.isNumber ≠ next.isNumber
  separates : ∀ piece ∈ pieces, piece.isNumber = false → piece.template ⊆ separators

theorem wellSpaced_of_mem {pattern : List DatePiece} (h : pattern ∈ datePatterns) : WellSpaced pattern where
  alternates := (by decide : ∀ pattern ∈ datePatterns,
    pattern.IsChain fun piece next => piece.isNumber ≠ next.isNumber) pattern h
  separates := (by decide : ∀ pattern ∈ datePatterns, ∀ piece ∈ pattern, piece.isNumber = false →
    piece.template ⊆ separators) pattern h

variable {moment : DateTime} {language : String} {piece : DatePiece} {pieces : List DatePiece} {tail : List Char}

theorem WellSpaced.of_cons (h : WellSpaced (piece :: pieces)) : WellSpaced pieces where
  alternates := (List.isChain_cons.1 h.alternates).2
  separates := fun piece hpiece => h.separates piece (.tail _ hpiece)

/-- Behind a number there is a separator or nothing, whatever is written for the numbers. -/
theorem WellSpaced.head?_of_number (h : WellSpaced (piece :: pieces)) (hnumber : piece.isNumber = true)
    {write : DatePiece → List Char} (hwrite : ∀ piece, piece.isNumber = false → write piece = piece.template) :
    ∀ c ∈ (pieces.flatMap write).head?, c ∈ separators := by
  intro c hc
  cases pieces with
  | nil => cases hc
  | cons next pieces =>
    have hnext : next.isNumber = false := by
      have hne := (List.isChain_cons.1 h.alternates).1 next rfl
      rw [hnumber] at hne
      exact Bool.eq_false_iff.2 hne.symm
    have hseparates := h.separates next (.tail _ (.head _)) hnext
    rw [List.flatMap_cons, hwrite next hnext] at hc
    cases next with
    | mark d =>
      cases hc
      exact hseparates (.head _)
    | blanks =>
      cases hc
      exact hseparates (.head _)
    | _ => cases hnext

/-! ### Templates are written -/

theorem dateTokenAt?_separator {c : Char} (h : c ∈ separators) (rest : List Char) : dateTokenAt? (c :: rest) = none := by
  simp only [separators, List.mem_cons, List.not_mem_nil, or_false] at h
  rcases h with rfl | rfl | rfl | rfl | rfl | rfl <;> rfl

/-- A token in front of a separator counts as a whole. -/
theorem dateTokenAt?_template (hnumber : piece.isNumber = true) (htail : ∀ c ∈ tail.head?, c ∈ separators) :
    ∃ part, dateTokenAt? (piece.template ++ tail) = some (piece.template.length, part) ∧
      ∀ moment language, part.text moment language = piece.text moment := by
  cases piece with
  | year => exact ⟨.year, rfl, fun _ _ => rfl⟩
  | month =>
    refine ⟨.paddedMonth, ?_, fun _ _ => rfl⟩
    -- a further `M` would make a longer token
    cases tail with
    | nil => rfl
    | cons c rest =>
      have hc := htail c rfl
      simp only [separators, List.mem_cons, List.not_mem_nil, or_false] at hc
      rcases hc with rfl | rfl | rfl | rfl | rfl | rfl <;> rfl
  | day => exact ⟨.paddedDay, rfl, fun _ _ => rfl⟩
  | hour => exact ⟨.paddedHour, rfl, fun _ _ => rfl⟩
  | minute => exact ⟨.paddedMinute, rfl, fun _ _ => rfl⟩
  | second => exact ⟨.paddedSecond, rfl, fun _ _ => rfl⟩
  | mark c => cases hnumber
  | blanks => cases hnumber

theorem renderTemplate_number (hnumber : piece.isNumber = true) (htail : ∀ c ∈ tail.head?, c ∈ separators) :
    renderTemplate moment language (piece.template ++ tail) =
      piece.text moment ++ renderTemplate moment language tail := by
  obtain ⟨part, htoken, htext⟩ := dateTokenAt?_template hnumber htail
  rw [← htext moment language]
  cases piece with
  | mark c => cases hnumber
  | blanks => cases hnumber
  | _ => exact renderTemplate_token htoken

theorem renderTemplate_separator (hnumber : piece.isNumber = false) (h : piece.template ⊆ separators) :
    renderTemplate moment language (piece.template ++ tail) =
      piece.text moment ++ renderTemplate moment language tail := by
  cases piece with
  | mark c => exact renderTemplate_mark (dateTokenAt?_separator (h (.head _)) tail)
  | blanks => exact renderTemplate_mark (dateTokenAt?_separator (h (.head _)) tail)
  | _ => cases hnumber

/-- The template of a pattern writes the numbers of a moment between the marks of the pattern. -/
theorem renderTemplate_pieces (h : WellSpaced pieces) :
    renderTemplate moment language (pieces.flatMap DatePiece.template) = pieces.flatMap (DatePiece.text moment) := by
  induction pieces with
  | nil => rw [List.flatMap_nil, List.flatMap_nil, renderTemplate]
  | cons piece pieces ih =>
    rw [List.flatMap_cons, List.flatMap_cons, ← ih h.of_cons]
    cases hnumber : piece.isNumber with
    | true => exact renderTemplate_number hnumber (h.head?_of_number hnumber fun _ _ => rfl)
    | false => exact renderTemplate_separator hnumber (h.separates piece (.head _) hnumber)

/-! ### What is written is read -/

/-- The time of a day has whole hours, minutes and seconds within their ranges. -/
def DateTime.IsTimeOfDay (moment : DateTime) : Prop :=
  moment.hour ≤ 23 ∧ moment.minute ≤ 59 ∧ moment.second ≤ 59

theorem isTimeOfDay_of_moment? {fields : DateFields} (h : fields.moment? = some moment) : moment.IsTimeOfDay := by
  obtain ⟨date, -, h⟩ := Option.bind_eq_some_iff.1 h
  obtain ⟨⟨hhour, hminute, -⟩, hmoment⟩ := Option.ite_none_right_eq_some.1 h
  cases hmoment
  exact ⟨hhour, hminute, Nat.min_le_right _ _⟩

/-- Whatever is read has a time of a day. -/
theorem readDate?_isTimeOfDay {text : String} (h : readDate? text = some moment) : moment.IsTimeOfDay := by
  rw [readDate?_eq] at h
  obtain ⟨reader, hreader, hread⟩ := List.exists_of_findSome?_eq_some h
  rcases List.mem_cons.1 hreader with rfl | hpattern
  · -- every part of a timestamp is read before its numbers are put together
    iterate 12 obtain ⟨_, -, hread⟩ := Option.bind_eq_some_iff.1 hread
    exact isTimeOfDay_of_moment? (Option.ite_none_right_eq_some.1 hread).2
  · obtain ⟨pattern, -, rfl⟩ := List.mem_map.1 hpattern
    obtain ⟨fields, -, hfields⟩ := Option.bind_eq_some_iff.1 hread
    exact isTimeOfDay_of_moment? hfields

theorem any_head?_eq_false {text : List Char} {p : Char → Bool} (h : ∀ c ∈ text.head?, p c = false) :
    text.head?.any p = false := by
  cases text with
  | nil => rfl
  | cons c rest => exact h c rfl

theorem isDigit_of_mem_separators {c : Char} (h : c ∈ separators) : c.isDigit = false := by
  have hall : ∀ c ∈ separators, c.isDigit = false := forall_of_all (by decide)
  exact hall c h

/-- What is written for a number has characters, and none of them is blank. -/
theorem text_number_nonblank (hnumber : piece.isNumber = true) (moment : DateTime) :
    piece.text moment ≠ [] ∧ ∀ c ∈ piece.text moment, isBlank c = false := by
  have hpadded {width : Nat} (hwidth : 0 < width) (n : Nat) :
      paddedNumber width n ≠ [] ∧ ∀ c ∈ paddedNumber width n, isBlank c = false := by
    obtain ⟨d, rest, hdigits, -⟩ := exists_paddedNumber hwidth n
    exact ⟨by rw [hdigits]; exact List.cons_ne_nil _ _, fun c hc => isBlank_of_isDigit (isDigit_paddedNumber c hc)⟩
  cases piece with
  | year =>
    show yearText _ ≠ [] ∧ ∀ c ∈ yearText _, isBlank c = false
    unfold yearText
    split
    · exact ⟨List.cons_ne_nil _ _, List.forall_mem_cons.2 ⟨by decide, (hpadded (by decide) _).2⟩⟩
    · exact hpadded (by decide) _
  | mark c => cases hnumber
  | blanks => cases hnumber
  | _ => exact hpadded (by decide) _

theorem readPiece?_number (hnumber : piece.isNumber = true) (hyear : moment.date.year ≤ 9999)
    (htime : moment.IsTimeOfDay) (fields : DateFields) (htail : tail.head?.any Char.isDigit = false) :
    readPiece? piece fields (piece.text moment ++ tail) = some (piece.fill moment fields, tail) := by
  obtain ⟨hmonth, hday⟩ := moment.date.lt_hundred
  obtain ⟨hhour, hminute, hsecond⟩ := htime
  have htwo {n : Nat} (hn : n < 100) : readDigits? 1 2 (trimLeft (paddedNumber 2 n ++ tail)) = some (n, tail) := by
    rw [trimLeft_paddedNumber (by decide), readDigits?_paddedNumber (by decide) hn htail]
  have hyear' : readYear? (trimLeft (yearText moment.date.year ++ tail)) = some (moment.date.year, tail) := by
    rw [trimLeft_yearText, readYear?_yearText hyear htail]
  unfold readPiece? DatePiece.text
  cases piece with
  | year => simp only [hyear', Option.map_some, DatePiece.fill]
  | month => simp only [htwo hmonth, Option.map_some, DatePiece.fill]
  | day => simp only [htwo hday, Option.map_some, DatePiece.fill]
  | hour => simp only [htwo (Nat.lt_of_le_of_lt hhour (by decide)), Option.map_some, DatePiece.fill]
  | minute => simp only [htwo (Nat.lt_of_le_of_lt hminute (by decide)), Option.map_some, DatePiece.fill]
  | second => simp only [htwo (Nat.lt_of_le_of_lt hsecond (by decide)), Option.map_some, DatePiece.fill]
  | mark c => cases hnumber
  | blanks => cases hnumber

theorem readPiece?_separator (hnumber : piece.isNumber = false) (fields : DateFields)
    (htail : tail.head?.any isBlank = false) :
    readPiece? piece fields (piece.text moment ++ tail) = some (piece.fill moment fields, tail) := by
  cases piece with
  | mark c =>
    have hdrop : dropChar? c (c :: tail) = some tail := if_pos rfl
    exact congrArg (Option.map fun rest => (fields, rest)) hdrop
  | blanks =>
    have hblank : trimLeft (' ' :: tail) = trimLeft tail := List.dropWhile_cons_of_pos (by decide)
    have htrim : trimLeft (' ' :: tail) = tail := hblank.trans (trimLeft_of_head htail)
    exact congrArg (fun rest => some (fields, rest)) htrim
  | _ => cases hnumber

/-- Behind a separator there is a number or nothing, and it does not begin with a blank. -/
theorem WellSpaced.head?_of_separator (h : WellSpaced (piece :: pieces)) (hnumber : piece.isNumber = false)
    (moment : DateTime) : (pieces.flatMap (DatePiece.text moment)).head?.any isBlank = false := by
  cases pieces with
  | nil => rfl
  | cons next pieces =>
    have hnext : next.isNumber = true := by
      have hne := (List.isChain_cons.1 h.alternates).1 next rfl
      rw [hnumber] at hne
      exact Bool.ne_false_iff.1 hne.symm
    obtain ⟨hne, hblank⟩ := text_number_nonblank hnext moment
    rw [List.flatMap_cons, List.head?_append_of_ne_nil _ hne]
    exact any_head?_eq_false fun c hc => hblank c (List.mem_of_mem_head? hc)

/-- A pattern reads what was written between its marks. -/
theorem readPieces?_written (h : WellSpaced pieces) (hyear : moment.date.year ≤ 9999) (htime : moment.IsTimeOfDay)
    (fields : DateFields) :
    readPieces? pieces fields (pieces.flatMap (DatePiece.text moment)) =
      some (pieces.foldl (fun fields piece => piece.fill moment fields) fields) := by
  -- what was written for the other pieces stands behind the first one
  induction pieces generalizing fields with
  | nil => rfl
  | cons piece pieces ih =>
    have hread : readPiece? piece fields (piece.text moment ++ pieces.flatMap (DatePiece.text moment)) =
        some (piece.fill moment fields, pieces.flatMap (DatePiece.text moment)) := by
      cases hnumber : piece.isNumber with
      | true =>
        have hwrite : ∀ piece, piece.isNumber = false → DatePiece.text moment piece = piece.template := by
          intro piece hpiece
          cases piece <;> first | rfl | cases hpiece
        exact readPiece?_number hnumber hyear htime fields
          (any_head?_eq_false fun c hc => isDigit_of_mem_separators (h.head?_of_number hnumber hwrite c hc))
      | false => exact readPiece?_separator hnumber fields (h.head?_of_separator hnumber moment)
    rw [List.flatMap_cons, readPieces?, hread]
    exact ih h.of_cons _

/-- The moment with those parts of its time of the day that a pattern has; the others are zero. -/
def DateTime.cutTo (moment : DateTime) (pattern : List DatePiece) : DateTime where
  date := moment.date
  hour := if .hour ∈ pattern then moment.hour else 0
  minute := if .minute ∈ pattern then moment.minute else 0
  second := if .second ∈ pattern then moment.second else 0

/-- The numbers of a moment make this moment. -/
theorem moment?_of_isTimeOfDay (h : moment.IsTimeOfDay) :
    DateFields.moment? { year := moment.date.year, month := moment.date.month, day := moment.date.day,
                         hour := moment.hour, minute := moment.minute, second := moment.second } = some moment := by
  have hdate : Date.of? moment.date.year moment.date.month moment.date.day = some moment.date :=
    dif_pos moment.date.isDate
  obtain ⟨hhour, hminute, hsecond⟩ := h
  have hrange : moment.hour ≤ 23 ∧ moment.minute ≤ 59 ∧ moment.second ≤ 60 := ⟨hhour, hminute, by omega⟩
  unfold DateFields.moment?
  rw [hdate, Option.bind_eq_bind, Option.bind_some, if_pos hrange, Nat.min_eq_left hsecond]
  rfl

theorem DateTime.IsTimeOfDay.cutTo (h : moment.IsTimeOfDay) (pattern : List DatePiece) : (moment.cutTo pattern).IsTimeOfDay := by
  have hcut {p : Prop} [Decidable p] {n most : Nat} (hn : n ≤ most) : (if p then n else 0) ≤ most := by
    split
    · exact hn
    · exact Nat.zero_le _
  exact ⟨hcut h.1, hcut h.2.1, hcut h.2.2⟩

/-- The pattern of a template reads what the template writes. -/
theorem readPattern?_written {pattern : List DatePiece} (hpattern : pattern ∈ datePatterns)
    (hyear : moment.date.year ≤ 9999) (htime : moment.IsTimeOfDay) :
    readPattern? pattern (pattern.flatMap (DatePiece.text moment)) = some (moment.cutTo pattern) := by
  unfold readPattern?
  rw [readPieces?_written (wellSpaced_of_mem hpattern) hyear htime, Option.bind_some,
    ← moment?_of_isTimeOfDay (htime.cutTo pattern)]
  refine congrArg DateFields.moment? ?_
  -- pattern by pattern, the numbers are those of the moment or have not been read
  simp only [datePatterns, List.mem_cons, List.not_mem_nil, or_false] at hpattern
  rcases hpattern with rfl | rfl | rfl | rfl | rfl | rfl <;> rfl

/-- No blanks stand at the ends of what a template writes. -/
theorem trim_written {pattern : List DatePiece} (hpattern : pattern ∈ datePatterns) (moment : DateTime) :
    trim (pattern.flatMap (DatePiece.text moment)) = pattern.flatMap (DatePiece.text moment) := by
  -- every pattern begins and ends with a number
  obtain ⟨first, hfirst, hfirstNumber⟩ := (by decide : ∀ pattern ∈ datePatterns,
    ∃ first ∈ pattern.head?, first.isNumber = true) pattern hpattern
  obtain ⟨last, hlast, hlastNumber⟩ := (by decide : ∀ pattern ∈ datePatterns,
    ∃ last ∈ pattern.getLast?, last.isNumber = true) pattern hpattern
  apply trim_of_ends
  · obtain ⟨pieces, rfl⟩ := List.head?_eq_some_iff.1 hfirst
    obtain ⟨hne, hblank⟩ := text_number_nonblank hfirstNumber moment
    rw [List.flatMap_cons, List.head?_append_of_ne_nil _ hne]
    exact any_head?_eq_false fun c hc => hblank c (List.mem_of_mem_head? hc)
  · obtain ⟨pieces, rfl⟩ := List.getLast?_eq_some_iff.1 hlast
    obtain ⟨hne, hblank⟩ := text_number_nonblank hlastNumber moment
    rw [List.flatMap_append, List.flatMap_singleton, List.getLast?_append_of_ne_nil _ hne, List.getLast?_eq_head?_reverse]
    exact any_head?_eq_false fun c hc => hblank c (List.mem_reverse.1 (List.mem_of_mem_head? hc))

/-- What the template of a pattern writes is read back, with blanks around it or without, up to the parts of the
time of the day that the pattern does not have. -/
theorem readDate?_formatDate {pattern : List DatePiece} (hpattern : pattern ∈ datePatterns)
    (hyear : moment.date.year ≤ 9999) (htime : moment.IsTimeOfDay) {before after : List Char}
    (hbefore : ∀ c ∈ before, isBlank c = true) (hafter : ∀ c ∈ after, isBlank c = true) {template : String}
    (htemplate : template.toList = pattern.flatMap DatePiece.template) :
    readDate? (String.ofList (before ++ (formatDate moment template language).toList ++ after)) =
      some (moment.cutTo pattern) := by
  have hmem : readPattern? pattern ∈ dateReaders := .tail _ (List.mem_map_of_mem hpattern)
  have hread := readPattern?_written hpattern hyear htime
  unfold formatDate
  rw [htemplate, renderTemplate_pieces (wellSpaced_of_mem hpattern), readDate?_eq, String.toList_ofList,
    String.toList_ofList, trim_append_blanks _ hbefore hafter, trim_written hpattern]
  exact findSome?_dateReaders hmem hread

/-- Every notation is the inverse of its template: a moment comes back, with the parts of its time of the day that
the template shows, and blanks around the text do not count.  The readers of the notations keep apart, so that none
takes the text of a later one. -/
theorem readDate?_notations :
    (∀ (moment : DateTime) (language : String) (before after : List Char),
      moment.date.year ≤ 9999 → moment.IsTimeOfDay →
      (∀ c ∈ before, isBlank c = true) → (∀ c ∈ after, isBlank c = true) →
      let reread (template : String) :=
        readDate? (String.ofList (before ++ (formatDate moment template language).toList ++ after))
      reread "yyyy-MM-ddTHH:mm:ss" = some moment ∧
      reread "yyyy-MM-dd HH:mm:ss" = some moment ∧
      reread "yyyy-MM-ddTHH:mm" = some { moment with second := 0 } ∧
      reread "yyyy/MM/dd" = some { date := moment.date } ∧
      reread "dd.MM.yyyy" = some { date := moment.date }) ∧
    (∀ text, readDate? text = dateReaders.findSome? fun reader => reader (trim text.toList)) ∧
    dateReaders.Pairwise fun earlier later => ∀ text, (later text).isSome = true → earlier text = none := by
  refine ⟨?_, readDate?_eq, pairwise_dateReaders⟩
  intro moment language before after hyear htime hbefore hafter
  have hread {pattern : List DatePiece} (hpattern : pattern ∈ datePatterns) {template : String}
      (htemplate : template.toList = pattern.flatMap DatePiece.template) :
      readDate? (String.ofList (before ++ (formatDate moment template language).toList ++ after)) =
        some (moment.cutTo pattern) :=
    readDate?_formatDate hpattern hyear htime hbefore hafter htemplate
  -- the fourth pattern has the date alone, with the marks in which expressions see it
  have hmem (i : Nat) (hi : i < datePatterns.length) : datePatterns[i] ∈ datePatterns := List.getElem_mem hi
  exact ⟨hread (hmem 0 (by decide)) rfl, hread (hmem 1 (by decide)) rfl, hread (hmem 2 (by decide)) rfl,
    hread (hmem 4 (by decide)) rfl, hread (hmem 5 (by decide)) rfl⟩

theorem readDate?_notations_on_leap_day :
    let moment : DateTime := { date := ⟨2024, 2, 29, by decide⟩, hour := 23, minute := 59, second := 58 }
    let reread (template : String) :=
      readDate? (String.ofList ([' '] ++ (formatDate moment template "en").toList ++ ['\n']))
    moment.date.year ≤ 9999 ∧ moment.IsTimeOfDay ∧ (∀ c ∈ [' '], isBlank c = true) ∧ (∀ c ∈ ['\n'], isBlank c = true) ∧
      reread "yyyy-MM-ddTHH:mm:ss" = some moment ∧
      reread "yyyy-MM-dd HH:mm:ss" = some moment ∧
      reread "yyyy-MM-ddTHH:mm" = some { moment with second := 0 } ∧
      reread "yyyy/MM/dd" = some { date := moment.date } ∧
      reread "dd.MM.yyyy" = some { date := moment.date } := by
  intro moment reread
  have hyear : moment.date.year ≤ 9999 := by decide
  have htime : moment.IsTimeOfDay := ⟨by decide, by decide, by decide⟩
  have hspace : ∀ c ∈ [' '], isBlank c = true := forall_of_all (by decide)
  have hnewline : ∀ c ∈ ['\n'], isBlank c = true := forall_of_all (by decide)
  exact ⟨hyear, htime, hspace, hnewline, readDate?_notations.1 moment "en" _ _ hyear htime hspace hnewline⟩

end SequenceNotation.Calendar
