import SequenceNotation.Proofs.Notation.NumericGroups
import SequenceNotation.Proofs.Number.Numeral
import SequenceNotation.Proofs.Number.Whole

/-!
# Integers as starts

An integer is written with digits of its radix, behind a sign if there is one and the marker of the radix.  A line that
begins with it, or has no start in front of its modifiers and takes it from the settings, starts with this integer, as
long as all integers of its size are doubles.
-/

namespace SequenceNotation.Notation

open SequenceNotation.Text SequenceNotation.Pattern SequenceNotation.Number

/-! ### Integer literals -/

/-- How the marker of a radix may be written. -/
def Radix.spellings : Radix → List (List Char)
  | binary => [['0', 'b'], ['0', 'B']]
  | octal => [['0', 'o'], ['0', 'O']]
  | decimal => [[]]
  | hex => [['0', 'x'], ['0', 'X']]

/-- An integer as it is written. -/
structure IntegerLiteral where
  sign : Option Char
  radix : Radix
  marker : List Char
  digits : List Char
  sign_mem : ∀ c ∈ sign, c ∈ ['+', '-']
  marker_mem : marker ∈ radix.spellings
  digits_ne_nil : digits ≠ []
  digits_of_radix : ∀ c ∈ digits, (radixDigit? radix.base c).isSome

theorem Radix.base_bounds (radix : Radix) : 1 < radix.base ∧ radix.base ≤ maxRadix := by
  cases radix <;> decide

theorem Radix.mem_marked {radix : Radix} (h : radix ≠ .decimal) : radix ∈ [binary, octal, hex] := by
  revert h
  cases radix <;> decide

theorem Radix.ofMarker_spelling {radix : Radix} {marker : List Char} (h : marker ∈ radix.spellings)
    (hradix : radix ≠ .decimal) : Radix.ofMarker marker = radix := by
  have hall : ∀ radix ∈ [binary, octal, hex], ∀ marker ∈ radix.spellings, Radix.ofMarker marker = radix := by decide
  exact hall radix (mem_marked hradix) marker h

/-- The letters of markers. -/
def markerLetters : CharClass :=
  .items false ("xXoObB".toList.map fun c => .range c c)

namespace IntegerLiteral

def text (literal : IntegerLiteral) : List Char :=
  literal.sign.toList ++ (literal.marker ++ literal.digits)

/-- What the digits count. -/
def magnitude (literal : IntegerLiteral) : Nat :=
  numeralValue literal.radix.base literal.digits

def value (literal : IntegerLiteral) : Int :=
  if literal.sign = some '-' then -(literal.magnitude : Int) else literal.magnitude

theorem sign_eq (literal : IntegerLiteral) : ∀ c ∈ literal.sign, c = '+' ∨ c = '-' := by
  simpa using literal.sign_mem

theorem readRadix?_digits (literal : IntegerLiteral) :
    readRadix? literal.radix.base literal.digits = some literal.magnitude :=
  readRadix?_eq literal.digits_ne_nil literal.digits_of_radix

theorem natAbs_value (literal : IntegerLiteral) : literal.value.natAbs = literal.magnitude := by
  unfold value
  split <;> simp

theorem mem_hexDigits (literal : IntegerLiteral) {c : Char} (h : c ∈ literal.digits) : c ∈ hexDigits := by
  obtain ⟨digit, hdigit, hlt⟩ := exists_digit_of_radixDigit? (literal.digits_of_radix c h)
  exact Text.mem_hexDigits hdigit (Nat.lt_of_lt_of_le hlt literal.radix.base_bounds.2)

/-- The characters of integers. -/
def chars : List Char :=
  ['+', '-', 'x', 'X', 'o', 'O'] ++ hexDigits

theorem mem_chars (literal : IntegerLiteral) {c : Char} (h : c ∈ literal.text) : c ∈ chars := by
  have hmarkers : ∀ radix ∈ [Radix.binary, .octal, .decimal, .hex], ∀ marker ∈ radix.spellings,
      marker.all (· ∈ chars) := by
    decide
  simp only [text, List.mem_append, Option.mem_toList] at h
  rcases h with hsign | hmarker | hdigit
  · rcases literal.sign_eq c hsign with rfl | rfl <;> decide
  · have hmarkerChars := hmarkers literal.radix (by cases literal.radix <;> decide) literal.marker literal.marker_mem
    exact forall_of_all hmarkerChars c hmarker
  · exact List.mem_append_right _ (literal.mem_hexDigits hdigit)

theorem byteLength_digits (literal : IntegerLiteral) : byteLength literal.digits = literal.digits.length := by
  have hall : ∀ c ∈ hexDigits, c.utf8Size = 1 := forall_of_all (by decide)
  have hdigits := fun c (hc : c ∈ literal.digits) => hall c (literal.mem_hexDigits hc)
  generalize literal.digits = digits at hdigits
  induction digits with
  | nil => rfl
  | cons c rest ih =>
    obtain ⟨hc, hrest⟩ := List.forall_mem_cons.1 hdigits
    rw [byteLength_cons, hc, ih hrest, List.length_cons, Nat.add_comm]

theorem isDigit_of_decimal (literal : IntegerLiteral) (hradix : literal.radix = .decimal) :
    ∀ c ∈ literal.digits, c.isDigit := by
  have hall : ∀ c ∈ hexDigits, ∀ digit ∈ digitValue? c, digit < 10 → c.isDigit := forall_of_all (by decide)
  intro c hc
  have hdigits := literal.digits_of_radix c hc
  rw [hradix] at hdigits
  obtain ⟨digit, hdigit, hlt⟩ := exists_digit_of_radixDigit? hdigits
  exact hall c (literal.mem_hexDigits hc) digit hdigit hlt

theorem marker_of_decimal (literal : IntegerLiteral) (hradix : literal.radix = .decimal) : literal.marker = [] := by
  have hmem := literal.marker_mem
  rw [hradix] at hmem
  exact List.mem_singleton.1 hmem

theorem exists_markerLetter (literal : IntegerLiteral) (hradix : literal.radix ≠ .decimal) :
    ∃ letter, literal.marker = ['0', letter] ∧ markerLetters.holds letter := by
  have hall : ∀ radix ∈ [Radix.binary, .octal, .hex], ∀ marker ∈ radix.spellings,
      "xXoObB".toList.any (fun letter => marker = ['0', letter] ∧ markerLetters.holds letter) := by
    decide
  obtain ⟨letter, -, hletter⟩ :=
    List.any_eq_true.1 (hall literal.radix (Radix.mem_marked hradix) literal.marker literal.marker_mem)
  exact ⟨letter, of_decide_eq_true hletter⟩

/-- The characters that integers begin with. -/
def firstChars : List Char :=
  ['+', '-', '0', '1', '2', '3', '4', '5', '6', '7', '8', '9']

/-- Behind the sign a digit comes first, even in radices that have letters. -/
theorem exists_digit_head (literal : IntegerLiteral) :
    ∃ c rest, literal.marker ++ literal.digits = c :: rest ∧ c.isDigit ∧ c ∈ hexDigits := by
  by_cases hradix : literal.radix = .decimal
  · obtain ⟨c, rest, hdigits⟩ := List.exists_cons_of_ne_nil literal.digits_ne_nil
    have hmem : c ∈ literal.digits := by rw [hdigits]; exact List.mem_cons_self
    rw [literal.marker_of_decimal hradix, List.nil_append]
    exact ⟨c, rest, hdigits, literal.isDigit_of_decimal hradix c hmem, literal.mem_hexDigits hmem⟩
  · obtain ⟨letter, hmarker, -⟩ := literal.exists_markerLetter hradix
    exact ⟨'0', letter :: literal.digits, by rw [hmarker]; rfl, by decide, by decide⟩

theorem exists_first (literal : IntegerLiteral) (rest : List Char) :
    ∃ c ∈ firstChars, (literal.text ++ rest).head? = some c := by
  have hall : ∀ c ∈ hexDigits, c.isDigit → c ∈ firstChars := forall_of_all (by decide)
  obtain ⟨c, behind, hcons, hdigit, hmem⟩ := literal.exists_digit_head
  rw [text, hcons]
  cases hsign : literal.sign with
  | none => exact ⟨c, hall c hmem hdigit, rfl⟩
  | some sign => exact ⟨sign, by rcases literal.sign_eq sign hsign with rfl | rfl <;> decide, rfl⟩

/-- The named parts of an integer that are found. -/
structure PartsOf (literal : IntegerLiteral) (found : Found) : Prop where
  sign : found.part? "sign" = literal.sign.map ([·])
  radix : found.part? "radix" = if literal.radix = .decimal then none else some literal.marker
  radix_digits : found.part? "radix_digits" = if literal.radix = .decimal then none else some literal.digits
  int : found.part? "int" = if literal.radix = .decimal then some literal.digits else none
  frac : found.part? "frac" = none
  random : found.part? "random" = none

end IntegerLiteral

/-! ### Matching integers -/

section Matching

variable {α : Type} {literal : IntegerLiteral} {place : Nat} {captures : Captures} {next : Continuation α} {a : α}

/-- The pattern of a number with a radix mark. -/
def radixPattern : Pattern :=
  .sequence (.named "radix" (.sequence (.one (.literal '0')) (.one markerLetters)))
    (.named "radix_digits" (.repeated (.one hexClass) 1 none))

/-- The parts that digits behind a marker are recorded in. -/
def radixCaptures (literal : IntegerLiteral) (captures : Captures) : Captures :=
  (captures.record "radix" literal.marker).record "radix_digits" literal.digits

/-- A run up to the end of the text. -/
theorem matchAt_run_finish {charClass : CharClass} {run : List Char} (hrun : run ≠ [])
    (hall : ∀ c ∈ run, charClass.holds c) (hnext : next (place + run.length) [] captures = some a) :
    (Pattern.repeated (.one charClass) 1 none).matchAt place run captures next = some a := by
  have hown := @matchAt_run α charClass run [] hrun hall rfl place captures next a hnext
  rwa [List.append_nil] at hown

theorem take_front (front back : List Char) : (front ++ back).take ((front ++ back).length - back.length) = front := by
  rw [List.length_append, Nat.add_sub_cancel_right, List.take_left]

/-- Digits behind a marker are found as such. -/
theorem matchAt_radix (hradix : literal.radix ≠ .decimal)
    (hnext : next (place + 1 + 1 + literal.digits.length) [] (radixCaptures literal captures) = some a) :
    radixPattern.matchAt place (literal.marker ++ literal.digits) captures next = some a := by
  obtain ⟨letter, hmarker, hletter⟩ := literal.exists_markerLetter hradix
  have hhex : ∀ c ∈ literal.digits, hexClass.holds c := by
    have hall : ∀ c ∈ hexDigits, hexClass.holds c := forall_of_all (by decide)
    exact fun c hc => hall c (literal.mem_hexDigits hc)
  rw [radixCaptures, hmarker] at hnext
  rw [hmarker]
  show (if (CharClass.literal '0').holds '0' then if markerLetters.holds letter then
    (Pattern.named "radix_digits" (.repeated (.one hexClass) 1 none)).matchAt (place + 1 + 1) literal.digits
      (captures.record "radix" ((['0', letter] ++ literal.digits).take
        ((['0', letter] ++ literal.digits).length - literal.digits.length))) next else none else none) = some a
  rw [if_pos (show (CharClass.literal '0').holds '0' = true from rfl), if_pos hletter, take_front]
  refine matchAt_run_finish literal.digits_ne_nil hhex ?_
  rw [List.length_nil, Nat.sub_zero, List.take_length]
  exact hnext

/-- The digits of a decimal are no digits behind a marker. -/
theorem matchAt_radix_none {digits : List Char} (hall : ∀ c ∈ digits, c ∈ hexDigits ∧ c.isDigit) :
    radixPattern.matchAt place digits captures next = none := by
  have hletters : ∀ c ∈ hexDigits, c.isDigit → markerLetters.holds c = false := forall_of_all (by decide)
  cases digits with
  | nil => rfl
  | cons c rest =>
    show (if (CharClass.literal '0').holds c then (Pattern.one markerLetters).matchAt (place + 1) rest captures _
      else none) = none
    split
    · refine matchAt_one_none ?_ _ _ _
      cases rest with
      | nil => rfl
      | cons d rest =>
        obtain ⟨hmem, hdigit⟩ := hall d (List.mem_cons_of_mem c List.mem_cons_self)
        exact hletters d hmem hdigit
    · rfl

/-- The digits of a decimal are found as a whole number. -/
theorem matchAt_whole (hradix : literal.radix = .decimal)
    (hnext : next (place + literal.digits.length) [] (captures.record "int" literal.digits) = some a) :
    magnitudePattern.matchAt place (literal.marker ++ literal.digits) captures next = some a := by
  have hall := literal.isDigit_of_decimal hradix
  rw [literal.marker_of_decimal hradix, List.nil_append]
  show firstOf (radixPattern.matchAt place literal.digits captures next) (fun _ =>
    (placesPattern "frac" (.named "int" digitsPattern)).matchAt place literal.digits captures next) = some a
  rw [matchAt_radix_none fun c hc => ⟨literal.mem_hexDigits hc, hall c hc⟩, firstOf, placesPattern, matchAt, matchAt]
  refine matchAt_run_finish literal.digits_ne_nil (fun c hc => holds_digit (hall c hc)) ?_
  rw [List.length_nil, Nat.sub_zero, List.take_length]
  exact (matchAt_optional_none rfl).trans hnext

/-- The parts that an integer without its sign is recorded in. -/
def unsignedCaptures (literal : IntegerLiteral) (captures : Captures) : Captures :=
  if literal.radix = .decimal then captures.record "int" literal.digits else radixCaptures literal captures

theorem matchAt_magnitude (hnext : ∀ place, next place [] (unsignedCaptures literal captures) = some a) :
    magnitudePattern.matchAt place (literal.marker ++ literal.digits) captures next = some a := by
  unfold unsignedCaptures at hnext
  split at hnext
  · rename_i hradix
    exact matchAt_whole hradix (hnext _)
  · rename_i hradix
    show firstOf (radixPattern.matchAt place (literal.marker ++ literal.digits) captures next) _ = some a
    rw [matchAt_radix hradix (hnext _)]
    rfl

end Matching

/-- The match of an integer, which is the whole text. -/
def integerFound (literal : IntegerLiteral) : Found :=
  { before := []
    matched := literal.text
    after := []
    captures := unsignedCaptures literal (literal.sign.toList.map fun c => ("sign", [c])) }

theorem find?_decimalBody (delimiter : Option String) (literal : IntegerLiteral) :
    (Segments.ofDelimiter delimiter).find? "decimal_body" literal.text = some (integerFound literal) := by
  have hunsigned {place : Nat} {captures : Captures} {next : Continuation Found} {found : Found}
      (hnext : ∀ place, next place [] (unsignedCaptures literal captures) = some found) :
      (Pattern.sequence magnitudePattern (.sequence spreadPattern .finish)).matchAt place
        (literal.marker ++ literal.digits) captures next = some found :=
    matchAt_magnitude fun place => (matchAt_optional_none rfl).trans (hnext place)
  rw [Segments.find?, pattern_decimalBody, find?_start, Pattern.foundAt?, decimalBodyPattern, matchAt]
  cases hsign : literal.sign with
  | none =>
    have htext : literal.text = literal.marker ++ literal.digits := by rw [IntegerLiteral.text, hsign]; rfl
    -- The optional sign is tried first, and no digit can be taken for one.
    have hhead : (literal.marker ++ literal.digits).head?.any signClass.holds = false := by
      have hall : ∀ c ∈ hexDigits, signClass.holds c = false := forall_of_all (by decide)
      obtain ⟨c, rest, hcons, -, hc⟩ := literal.exists_digit_head
      rw [hcons]
      exact hall c hc
    rw [integerFound, hsign, htext]
    refine (matchAt_optional_none ?_).trans (hunsigned fun _ => ?_)
    · rw [matchAt]
      exact matchAt_one_none hhead _ _ _
    · rw [List.length_nil, Nat.sub_zero, List.take_length]
      rfl
  | some c =>
    have htext : literal.text = [c] ++ (literal.marker ++ literal.digits) := by rw [IntegerLiteral.text, hsign]; rfl
    have hc : signClass.holds c := by
      rcases literal.sign_eq c hsign with rfl | rfl <;> rfl
    rw [integerFound, hsign, htext]
    refine matchAt_optional_some ?_
    show (if signClass.holds c then (Pattern.sequence magnitudePattern (.sequence spreadPattern .finish)).matchAt
      (0 + 1) (literal.marker ++ literal.digits) (Captures.record [] "sign"
        (([c] ++ (literal.marker ++ literal.digits)).take (([c] ++ (literal.marker ++ literal.digits)).length -
          (literal.marker ++ literal.digits).length))) _ else none) = _
    rw [if_pos hc, take_front]
    refine hunsigned fun _ => ?_
    rw [List.length_nil, Nat.sub_zero, List.take_length]
    rfl

theorem partsOf_integerFound (literal : IntegerLiteral) : literal.PartsOf (integerFound literal) := by
  unfold integerFound unsignedCaptures radixCaptures
  constructor <;> rw [Found.part?] <;> by_cases hradix : literal.radix = .decimal <;> cases literal.sign <;>
    simp [hradix, Captures.record, List.lookup_cons]

/-! ### Reading integers -/

/-- The start that an integer is. -/
structure IsIntegerStart (literal : IntegerLiteral) (start : DecimalStart) : Prop where
  radix : start.radix = literal.radix
  value : start.value.integer? = some literal.value
  precision : start.precision = none
  leadWidth : start.leadWidth =
    if 1 < literal.digits.length ∧ literal.digits.head? = some '0' then some literal.digits.length else none
  uppercase : literal.radix = .decimal → start.uppercase = false
  random : start.random = none

namespace IntegerLiteral

theorem magnitude_of_decimal (literal : IntegerLiteral) (hradix : literal.radix = .decimal) :
    literal.magnitude = digitsValue literal.digits := by
  have hall := literal.isDigit_of_decimal hradix
  unfold magnitude
  rw [hradix]
  refine List.foldl_ext _ _ _ fun n c hc => ?_
  rw [digitValue?, if_pos (hall c hc)]
  rfl

theorem readDouble_digits (literal : IntegerLiteral) (hradix : literal.radix = .decimal) :
    readDouble literal.digits = some (nearestDecimal false literal.magnitude 0) := by
  have hall := literal.isDigit_of_decimal hradix
  have hcons : ∃ d rest, literal.digits = d :: rest ∧ d.isDigit = true := by
    obtain ⟨d, rest, hdigits⟩ := List.exists_cons_of_ne_nil literal.digits_ne_nil
    exact ⟨d, rest, hdigits, hall d (by rw [hdigits]; exact List.mem_cons_self)⟩
  rw [literal.magnitude_of_decimal hradix, ← readUnsigned_whole false literal.digits_ne_nil hall]
  exact readDouble_signed hcons false

end IntegerLiteral

/-- The magnitude of an integer is read exactly. -/
theorem readMagnitude?_integer (literal : IntegerLiteral) (hsize : literal.magnitude ≤ Double.exactLimit) :
    ∃ magnitude, readMagnitude? (integerFound literal) = some (literal.radix, magnitude, none, literal.digits) ∧
      magnitude.integer? = some (literal.magnitude : Int) := by
  have hparts := partsOf_integerFound literal
  unfold readMagnitude?
  rw [hparts.radix, hparts.radix_digits, hparts.int, hparts.frac]
  by_cases hradix : literal.radix = .decimal
  · rw [if_pos hradix, if_pos hradix]
    refine ⟨nearestDecimal false literal.magnitude 0, ?_, Double.integer?_nearestDecimal false hsize⟩
    dsimp only
    rw [literal.readDouble_digits hradix, Option.bind_eq_bind, Option.bind_some, hradix]
    rfl
  · rw [if_neg hradix, if_neg hradix, if_neg hradix]
    have hbound : literal.magnitude < countBound := Nat.lt_of_le_of_lt hsize (by decide)
    refine ⟨Double.ofNat literal.magnitude, ?_, Double.integer?_ofNat hsize⟩
    dsimp only
    rw [Radix.ofMarker_spelling literal.marker_mem hradix, Option.bind_eq_bind, Option.bind_some,
      literal.readRadix?_digits, Option.filter_some, if_pos (decide_eq_true hbound)]
    rfl

/-- An integer is read as a start. -/
theorem exists_readDecimal (delimiter : Option String) (literal : IntegerLiteral)
    (hsize : literal.magnitude ≤ Double.exactLimit) :
    ∃ start, readDecimal? (Segments.ofDelimiter delimiter) literal.text = some start ∧
      IsIntegerStart literal start := by
  have hparts := partsOf_integerFound literal
  obtain ⟨magnitude, hmagnitude, hvalue⟩ := readMagnitude?_integer literal hsize
  unfold readDecimal?
  rw [find?_decimalBody, Option.bind_eq_bind, Option.bind_some, hmagnitude, Option.bind_eq_bind, Option.bind_some]
  -- There remain the value, the width, the absent precision and the absent spread.
  refine ⟨_, rfl, rfl, ?_, rfl, ?_, ?_, ?_⟩
  · have hminus : isMinus (integerFound literal) "sign" = decide (literal.sign = some '-') := by
      unfold isMinus
      rw [hparts.sign]
      cases literal.sign <;> simp
    rw [hminus]
    unfold IntegerLiteral.value
    by_cases hsign : literal.sign = some '-'
    · rw [decide_eq_true hsign, if_pos rfl, if_pos hsign]
      exact Double.integer?_neg hvalue
    · rw [decide_eq_false hsign, if_neg Bool.false_ne_true, if_neg hsign]
      exact hvalue
  · rw [literal.byteLength_digits]
  · intro hradix
    rw [hradix]
    rfl
  · rw [hparts.random]
    rfl

/-! ### Lines that start with integers -/

/-- The first token of a line and what is behind it, blanks at the ends of the line aside. -/
structure IsFirstToken (delimiter : Option String) (line : String) (token rest : List Char) : Prop where
  trim_eq : trim line.toList = token ++ rest
  isToken : IsToken (EndsToken (delimiterWord? delimiter) keySpellings) token (mask rest)

/-- No mark begins like an integer. -/
theorem findMark?_of_first (delimiter : Option String) {text : List Char} {c : Char}
    (hc : c ∈ IntegerLiteral.firstChars) (hhead : text.head? = some c) :
    findMark? (Segments.ofDelimiter delimiter) text = none := by
  have hwords : ∀ mark ∈ StartMark.all, ∀ word ∈ mark.words.map String.toList, word ≠ [] ∧
      word.head?.all (· ∉ IntegerLiteral.firstChars) := by
    decide
  refine List.findSome?_eq_none_iff.2 fun mark hmark => ?_
  rw [find?_mark, List.find?_eq_none.2 fun word hword => ?_]
  · rfl
  · obtain ⟨hne, hfirst⟩ := hwords mark hmark word hword
    obtain ⟨d, word, rfl⟩ := List.exists_cons_of_ne_nil hne
    intro hprefix
    obtain ⟨behind, htext⟩ := of_decide_eq_true hprefix
    rw [← htext] at hhead
    obtain rfl : d = c := Option.some.inj hhead
    exact of_decide_eq_true (p := d ∉ IntegerLiteral.firstChars) hfirst hc

/-- No kind of start has an integer for its mark. -/
theorem findMark?_integer (delimiter : Option String) (literal : IntegerLiteral) (rest : List Char) :
    findMark? (Segments.ofDelimiter delimiter) (literal.text ++ rest) = none := by
  obtain ⟨c, hc, hhead⟩ := literal.exists_first rest
  exact findMark?_of_first delimiter hc hhead

/-- A line without a mark starts with what its first token is read as. -/
theorem classify_unmarked {delimiter : Option String} {line : String} {token rest : List Char}
    (hline : IsFirstToken delimiter line token rest) (hclosers : ∀ c ∈ token, closer? c = none)
    (hmark : findMark? (Segments.ofDelimiter delimiter) (token ++ mask rest) = none) (defaultStart : String) :
    classify (Segments.ofDelimiter delimiter) defaultStart line =
      { start := readUnmarked (Segments.ofDelimiter delimiter) defaultStart token,
        remainder := String.ofList rest } := by
  have hmask : mask (token ++ rest) = token ++ mask rest := by
    rw [mask_append (openAfter_plain hclosers), mask_plain hclosers]
  have hend := boundaryAfter_isToken hline.isToken []
  rw [List.nil_append, List.nil_append, show byteLength [] = 0 from rfl] at hend
  unfold classify
  dsimp only
  rw [hline.trim_eq, hmask, hmark]
  dsimp only
  rw [hend, splitAtByte_byteLength]

/-- A line starts with an integer, in front of what remains: the integer is its first token, or it is the default start
and the line has no start of its own. -/
inductive StartsWith (delimiter : Option String) (defaultStart line : String) (literal : IntegerLiteral)
    (rest : List Char) : Prop
  | written (hline : IsFirstToken delimiter line literal.text rest)
  | default (hline : IsFirstToken delimiter line [] rest)
    (hmark : findMark? (Segments.ofDelimiter delimiter) (mask rest) = none)
    (hstart : trim defaultStart.toList = literal.text)

/-- A line that starts with an integer is taken apart behind it. -/
theorem StartsWith.exists_integerStart {delimiter : Option String} {defaultStart line : String}
    {literal : IntegerLiteral} {rest : List Char} (h : StartsWith delimiter defaultStart line literal rest)
    (hsize : literal.magnitude ≤ Double.exactLimit) :
    ∃ start, classify (Segments.ofDelimiter delimiter) defaultStart line =
      { start := .decimal start, remainder := String.ofList rest } ∧ IsIntegerStart literal start := by
  obtain ⟨start, hread, hstart⟩ := exists_readDecimal delimiter literal hsize
  refine ⟨start, ?_, hstart⟩
  cases h with
  | written hline =>
    have hclosers : ∀ c ∈ literal.text, closer? c = none := by
      have hall : ∀ c ∈ IntegerLiteral.chars, closer? c = none := forall_of_all (by decide)
      exact fun c hc => hall c (literal.mem_chars hc)
    have hne : literal.text ≠ [] := by
      intro hnil
      exact literal.digits_ne_nil (List.append_eq_nil_iff.1 (List.append_eq_nil_iff.1 hnil).2).2
    rw [classify_unmarked hline hclosers (findMark?_integer delimiter literal (mask rest)), readUnmarked, if_neg hne,
      hread]
  | default hline hmark hdefault =>
    rw [classify_unmarked hline (List.forall_mem_nil _) hmark, readUnmarked, if_pos rfl, hdefault, hread]
    rfl

end SequenceNotation.Notation
