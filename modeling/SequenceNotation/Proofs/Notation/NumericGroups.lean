import SequenceNotation.Proofs.Notation.ListEnds
import SequenceNotation.Proofs.Notation.ScriptDigits
import SequenceNotation.Proofs.Pattern.Parses

/-!
# Numbers in starts

The bodies of starts are matched with patterns that name their numbers, and the numbers are read from the texts of the
named parts.  The patterns take digits of every script and in any count, the readers do not, and a default stands in
where nothing is read.  So a number that took part in a match is the one that is used exactly if it has ASCII digits and
stays below the bound of its kind, or is no start at all, as a number without a mark and the number of a configured
list.  The texts that named parts can hold come from the parses of the patterns.
-/

namespace SequenceNotation.Notation

open SequenceNotation.Text SequenceNotation.Pattern SequenceNotation.Number

/-! ### The patterns of bodies -/

/-- The pattern of digits. -/
def digitsPattern : Pattern :=
  .repeated (.one .digit) 1 none

/-- The pattern of the body that chooses a function. -/
def functionPattern : Pattern :=
  .sequence (.repeated (.named "number" digitsPattern) 0 (some 1))
    (.sequence (.repeated (.sequence (.one (.literal ',')) (.named "start_at" decimalPattern)) 0 (some 1)) .finish)

/-- The expansion of the segment for functions. -/
def functionSource : String :=
  "^ (?P<number> \\d+ )? (?: , (?P<start_at> (?:(?:[+-])? \\d+ (?: \\. \\d+ )?) ) )? $"

theorem pattern_functionBody (delimiter : Option String) :
    (Segments.ofDelimiter delimiter).pattern "func_body" = .sequence .start functionPattern := by
  have hexpansion : expansion? fixedDefinitions 3 "func_body" = some functionSource.toList :=
    expansion?_of_source rfl String.toList_ofList String.toList_ofList (by decide)
  have hchars : functionSource.toList = _ := String.toList_ofList
  rw [pattern_eq (by decide) (expansion?_fixed delimiter hexpansion), hchars]
  decide

/-- The pattern of a separator and one or two digits behind it, with what may follow. -/
def datePartPattern (name : String) (behind : Pattern → Pattern) : Pattern :=
  .repeated (.sequence (.one (.items false [.range '-' '-', .range '.' '.', .range '/' '/']))
    (behind (.named name (.repeated (.one .digit) 1 (some 2))))) 0 (some 1)

/-- The pattern of the body of a date. -/
def datePattern : Pattern :=
  .sequence
    (.repeated (.sequence
      (.named "year" (.choice (.repeated (.one .digit) 4 (some 4)) (.repeated (.one .digit) 2 (some 2))))
      (datePartPattern "month" fun month => .sequence month (datePartPattern "day" id))) 0 (some 1))
    .finish

set_option maxRecDepth 2000 in
theorem pattern_dateBody (delimiter : Option String) :
    (Segments.ofDelimiter delimiter).pattern "date_body" = .sequence .start datePattern := by
  rw [pattern_of_plain delimiter (by decide) rfl String.toList_ofList (by decide)]
  decide

/-- The pattern of a text in quotes of one kind. -/
def quotedPattern (quote : Char) (name : String) : Pattern :=
  .sequence (.one (.literal quote))
    (.sequence (.named name (.repeated (.one (.items true [.range quote quote])) 0 none)) (.one (.literal quote)))

/-- The pattern of the body that chooses a configured list. -/
def predefinedPattern : Pattern :=
  .sequence
    (.choice (.named "number" digitsPattern)
      (.choice (quotedPattern '"' "dquoted")
        (.choice (quotedPattern '\'' "squoted") (.named "text" (.repeated (.one .notLineFeed) 1 none)))))
    .finish

set_option maxRecDepth 2000 in
theorem pattern_predefinedBody (delimiter : Option String) :
    (Segments.ofDelimiter delimiter).pattern "predef_body" = .sequence .start predefinedPattern := by
  rw [pattern_of_plain delimiter (by decide) rfl String.toList_ofList (by decide)]
  decide

/-- The pattern of digits, and a point with digits behind it in a part of their own. -/
def placesPattern (name : String) (whole : Pattern) : Pattern :=
  .sequence whole (.repeated (.sequence (.one (.literal '.')) (.named name digitsPattern)) 0 (some 1))

/-- The class of hexadecimal digits; the first digit of a range stands for itself too. -/
def hexClass : CharClass :=
  .items false [.range '0' '0', .range '0' '9', .range 'a' 'a', .range 'a' 'f', .range 'A' 'A', .range 'A' 'F']

/-- The pattern of a number with a radix mark, or of one without. -/
def magnitudePattern : Pattern :=
  .choice
    (.sequence
      (.named "radix" (.sequence (.one (.literal '0'))
        (.one (.items false ("xXoObB".toList.map fun c => .range c c)))))
      (.named "radix_digits" (.repeated (.one hexClass) 1 none)))
    (placesPattern "frac" (.named "int" digitsPattern))

/-- The pattern of a draw. -/
def spreadPattern : Pattern :=
  .repeated (.sequence (.named "random" (.one (.items false [.range 'r' 'r', .range 'R' 'R'])))
    (.sequence (.repeated (.named "random_sign" (.one signClass)) 0 (some 1))
      (.repeated (.named "magnitude" (placesPattern "random_frac" digitsPattern)) 0 (some 1)))) 0 (some 1)

/-- The pattern of a number as a start. -/
def decimalBodyPattern : Pattern :=
  .sequence (.repeated (.named "sign" (.one signClass)) 0 (some 1))
    (.sequence magnitudePattern (.sequence spreadPattern .finish))

/-- The expansion of the segment for decimals. -/
def decimalSource : String :=
  "^ (?P<sign> (?:[+-]) )?
     (?: (?P<radix> 0[xXoObB] ) (?P<radix_digits> [0-9a-fA-F]+ )
       | (?P<int> \\d+ ) (?: \\. (?P<frac> \\d+ ) )? )
     (?: (?P<random> [rR] ) (?P<random_sign> (?:[+-]) )?
         (?P<magnitude> \\d+ (?: \\. (?P<random_frac> \\d+ ) )? )? )?
     $"

set_option maxRecDepth 4000 in
theorem pattern_decimalBody (delimiter : Option String) :
    (Segments.ofDelimiter delimiter).pattern "decimal_body" = .sequence .start decimalBodyPattern := by
  have hexpansion : expansion? fixedDefinitions 3 "decimal_body" = some decimalSource.toList :=
    expansion?_of_source rfl String.toList_ofList String.toList_ofList (by decide)
  have hchars : decimalSource.toList = _ := String.toList_ofList
  rw [pattern_eq (by decide) (expansion?_fixed delimiter hexpansion), hchars]
  decide

/-! ### The texts of numbers -/

/-- A text of digits of any script. -/
def IsDigits (text : List Char) : Prop :=
  text ≠ [] ∧ ∀ c ∈ text, isDecimalDigit c

theorem isDigits_of_accepts {most : Option Nat} {text : List Char}
    (h : Accepts (.repeated (.one .digit) 1 most) text) : IsDigits text := by
  obtain ⟨hall, hpos, -⟩ := h.run
  exact ⟨List.length_pos_iff.1 hpos, hall⟩

/-- What the patterns of decimals accept is a numeral, with digits behind the point if there is one. -/
theorem exists_numeral_of_accepts {behind : Pattern} (hbehind : ∀ text, Accepts behind text → IsDigits text)
    {text : List Char}
    (h : Accepts (.sequence digitsPattern (.repeated (.sequence (.one (.literal '.')) behind) 0 (some 1))) text)
    {sign : Option Char} (hsign : ∀ c ∈ sign, c = '+' ∨ c = '-') :
    ∃ numeral : Numeral, numeral.text = sign.toList ++ text ∧ ∀ digits ∈ numeral.places, digits ≠ [] := by
  obtain ⟨whole, fraction, rfl, hwhole, hfraction⟩ := h.sequence
  obtain ⟨hne, hall⟩ := isDigits_of_accepts hwhole
  rcases hfraction.optional with rfl | hfraction
  · exact ⟨{ sign, whole, places := none, sign_eq := hsign, whole_ne_nil := hne, isDecimalDigit_whole := hall,
             isDecimalDigit_places := fun _ hnone => by cases hnone }, by rw [List.append_nil]; rfl,
      fun _ hnone => by cases hnone⟩
  · obtain ⟨point, digits, rfl, hpoint, hdigits⟩ := hfraction.sequence
    obtain ⟨c, rfl, hc⟩ := hpoint.one
    obtain rfl : c = '.' := of_decide_eq_true hc
    refine ⟨{ sign, whole, places := some digits, sign_eq := hsign, whole_ne_nil := hne, isDecimalDigit_whole := hall,
              isDecimalDigit_places := ?_ }, rfl, ?_⟩
    · rintro _ ⟨⟩
      exact (hbehind digits hdigits).2
    · rintro _ ⟨⟩
      exact (hbehind digits hdigits).1

theorem exists_numeral_of_decimalPattern {text : List Char} (h : Accepts decimalPattern text) :
    ∃ numeral : Numeral, numeral.text = text ∧ ∀ digits ∈ numeral.places, digits ≠ [] := by
  obtain ⟨front, back, rfl, hfront, hback⟩ := h.sequence
  have hdigits : ∀ text, Accepts digitsPattern text → IsDigits text := fun _ => isDigits_of_accepts
  rcases hfront.optional with rfl | hsign
  · exact @exists_numeral_of_accepts _ hdigits back hback none fun _ hnone => by cases hnone
  · obtain ⟨c, rfl, hc⟩ := hsign.one
    refine @exists_numeral_of_accepts _ hdigits back hback (some c) ?_
    rintro _ ⟨⟩
    exact holds_signClass hc

/-- A part that is a repeated digit in its pattern holds digits. -/
theorem isDigits_of_part? {inner : Pattern} {body : List Char} {found : Found}
    (h : (Pattern.sequence .start inner).find? body = some found) {name : String} {most : Option Nat}
    (hparts : inner.parts name = [.repeated (.one .digit) 1 most]) {digits : List Char}
    (hdigits : found.part? name = some digits) : IsDigits digits ∧ ∀ n ∈ most, digits.length ≤ n := by
  obtain ⟨part, hpart, haccepts⟩ := exists_of_part? h hdigits
  rw [hparts] at hpart
  obtain rfl := List.mem_singleton.1 hpart
  exact ⟨isDigits_of_accepts haccepts, haccepts.run.2.2⟩

section Parts

variable {delimiter : Option String} {body : List Char} {found : Found}

theorem date_parts (h : (Segments.ofDelimiter delimiter).find? "date_body" body = some found) {name : String}
    (hname : name ∈ ["month", "day"]) : ∀ digits ∈ found.part? name, IsDigits digits ∧ digits.length ≤ 2 := by
  rw [Segments.find?, pattern_dateBody] at h
  intro digits hdigits
  have hall : ∀ name ∈ ["month", "day"], datePattern.parts name = [.repeated (.one .digit) 1 (some 2)] := by decide
  obtain ⟨hown, hlength⟩ := isDigits_of_part? h (hall name hname) hdigits
  exact ⟨hown, hlength 2 rfl⟩

theorem list_parts (h : (Segments.ofDelimiter delimiter).find? "own_body" body = some found) :
    ∀ digits ∈ found.part? "start", IsDigits digits := by
  rw [Segments.find?, pattern_ownBody] at h
  exact fun digits hdigits => (isDigits_of_part? h rfl hdigits).1

theorem predefined_parts (h : (Segments.ofDelimiter delimiter).find? "predef_body" body = some found) :
    ∀ digits ∈ found.part? "number", IsDigits digits := by
  rw [Segments.find?, pattern_predefinedBody] at h
  exact fun digits hdigits => (isDigits_of_part? h rfl hdigits).1

theorem function_parts (h : (Segments.ofDelimiter delimiter).find? "func_body" body = some found) :
    (∀ digits ∈ found.part? "number", IsDigits digits) ∧
      ∀ text ∈ found.part? "start_at", ∃ numeral : Numeral, numeral.text = text := by
  rw [Segments.find?, pattern_functionBody] at h
  refine ⟨fun digits hdigits => (isDigits_of_part? h rfl hdigits).1, fun text htext => ?_⟩
  obtain ⟨part, hpart, haccepts⟩ := exists_of_part? h htext
  obtain rfl : part = decimalPattern := List.mem_singleton.1 hpart
  exact (exists_numeral_of_decimalPattern haccepts).imp fun _ hnumeral => hnumeral.1

/-- A magnitude records digits behind the mark of a radix, or a whole number, and not the parts of the other form. -/
theorem magnitude_parts {text rest : List Char} {captures captures' : Captures}
    (h : Parses magnitudePattern text captures rest captures') :
    ((captures'.lookup "radix").isSome ∧ (captures'.lookup "radix_digits").isSome ∧
        captures'.lookup "int" = captures.lookup "int" ∧ captures'.lookup "frac" = captures.lookup "frac") ∨
      (captures'.lookup "radix" = captures.lookup "radix" ∧
        captures'.lookup "radix_digits" = captures.lookup "radix_digits" ∧ (captures'.lookup "int").isSome) := by
  cases h with
  | first hradix =>
    cases hradix with
    | sequence hmark hdigits =>
      obtain ⟨mark, hmark'⟩ := hmark.exists_lookup
      obtain ⟨digits, hdigits'⟩ := hdigits.exists_lookup
      refine .inl ⟨?_, ?_, ?_, ?_⟩
      · rw [hdigits.lookup_eq rfl, hmark']
        rfl
      · rw [hdigits']
        rfl
      · rw [hdigits.lookup_eq rfl, hmark.lookup_eq rfl]
      · rw [hdigits.lookup_eq rfl, hmark.lookup_eq rfl]
  | second hwhole =>
    cases hwhole with
    | sequence hint hfraction =>
      obtain ⟨whole, hwhole⟩ := hint.exists_lookup
      refine .inr ⟨?_, ?_, ?_⟩
      · rw [hfraction.lookup_eq rfl, hint.lookup_eq rfl]
      · rw [hfraction.lookup_eq rfl, hint.lookup_eq rfl]
      · rw [hfraction.lookup_eq rfl, hwhole]
        rfl

/-- A magnitude that was not there before comes with the letter of its draw. -/
theorem spread_parts {text rest : List Char} {captures captures' : Captures}
    (h : Parses spreadPattern text captures rest captures') (hnone : captures.lookup "magnitude" = none)
    (hsome : (captures'.lookup "magnitude").isSome) : (captures'.lookup "random").isSome := by
  rcases h.optional with ⟨-, rfl⟩ | hspread
  · rw [hnone] at hsome
    cases hsome
  · cases hspread with
    | sequence hrandom hbehind =>
      obtain ⟨letter, hletter⟩ := hrandom.exists_lookup
      rw [hbehind.lookup_eq rfl, hletter]
      rfl

/-- Which parts of a decimal there are: digits behind the mark of a radix or a whole number, and a magnitude only in a
draw. -/
theorem decimal_parts (h : (Segments.ofDelimiter delimiter).find? "decimal_body" body = some found) :
    (((found.part? "radix").isSome ∧ (found.part? "radix_digits").isSome ∧ found.part? "int" = none ∧
            found.part? "frac" = none) ∨
          (found.part? "radix" = none ∧ found.part? "radix_digits" = none ∧ (found.part? "int").isSome)) ∧
      ((found.part? "magnitude").isSome → (found.part? "random").isSome) := by
  rw [Segments.find?, pattern_decimalBody] at h
  obtain ⟨rest, hparses⟩ := parses_of_find? h
  simp only [Found.part?]
  generalize found.captures = captures at hparses
  -- the captures grow from part to part: sign, magnitude, draw
  cases hparses with
  | @sequence _ _ _ _ _ _ signed _ hsign hparses =>
  cases hparses with
  | @sequence _ _ _ _ _ _ behind _ hmagnitude hparses =>
  cases hparses with
  | sequence hspread hfinish =>
  cases hfinish
  have hunsigned {name : String} (hname : name ∈ ["radix", "radix_digits", "int", "frac", "magnitude"]) :
      signed.lookup name = none := by
    have hall : ∀ name ∈ ["radix", "radix_digits", "int", "frac", "magnitude"],
        (Pattern.repeated (.named "sign" (.one signClass)) 0 (some 1)).parts name = [] := by decide
    exact hsign.lookup_eq (hall name hname)
  constructor
  · have hkept {name : String} (hname : name ∈ ["radix", "radix_digits", "int", "frac"]) :
        captures.lookup name = behind.lookup name := by
      have hall : ∀ name ∈ ["radix", "radix_digits", "int", "frac"], spreadPattern.parts name = [] := by decide
      exact hspread.lookup_eq (hall name hname)
    rw [hkept (by decide), hkept (by decide), hkept (by decide), hkept (by decide)]
    have hparts := magnitude_parts hmagnitude
    rwa [hunsigned (by decide), hunsigned (by decide), hunsigned (by decide), hunsigned (by decide)] at hparts
  · exact spread_parts hspread ((hmagnitude.lookup_eq rfl).trans (hunsigned (by decide)))

theorem decimal_texts (h : (Segments.ofDelimiter delimiter).find? "decimal_body" body = some found) :
    (∀ digits ∈ found.part? "int", IsDigits digits) ∧ (∀ digits ∈ found.part? "frac", IsDigits digits) ∧
      ∀ text ∈ found.part? "magnitude", ∃ numeral : Numeral, numeral.text = text := by
  rw [Segments.find?, pattern_decimalBody] at h
  refine ⟨fun digits hdigits => (isDigits_of_part? h rfl hdigits).1,
    fun digits hdigits => (isDigits_of_part? h rfl hdigits).1, fun text htext => ?_⟩
  obtain ⟨part, hpart, haccepts⟩ := exists_of_part? h htext
  obtain rfl : part = placesPattern "random_frac" digitsPattern := List.mem_singleton.1 hpart
  have hnumeral := @exists_numeral_of_accepts _ (fun _ haccepts => isDigits_of_accepts haccepts.named) _ haccepts none
    fun _ hnone => by cases hnone
  exact hnumeral.imp fun _ hnumeral => hnumeral.1

end Parts

/-! ### Numbers that are used -/

/-- The digits of a part are the count that is used. -/
def CountUsed (part : Option (List Char)) (count : Option Nat) : Prop :=
  ∀ digits ∈ part, count = some (scriptValue digits)

/-- The text of a part is the decimal that is used. -/
def DecimalUsed (part : Option (List Char)) (n : Option Double) : Prop :=
  ∀ text ∈ part, ∃ numeral : Numeral, numeral.text = text ∧ n = some numeral.value

/-- The digits behind the mark of a radix, or a whole number with its places, are the magnitude that is used. -/
def MagnitudeUsed (found : Found) (radix : Radix) (magnitude : Double) : Prop :=
  (∃ digits n, found.part? "radix_digits" = some digits ∧ found.part? "int" = none ∧ found.part? "frac" = none ∧
      readRadix? radix.base digits = some n ∧ magnitude = Double.ofNat n) ∨
    ∃ numeral : Numeral, numeral.sign = none ∧ found.part? "radix_digits" = none ∧
      found.part? "int" = some numeral.whole ∧ found.part? "frac" = numeral.places ∧ magnitude = numeral.value

/-- Every number that took part in the match of a body is the number of the start, or there is no such start. -/
def NumbersUsed (found : Found) : Start → Prop
  | .decimal decimal =>
    (∃ magnitude, MagnitudeUsed found decimal.radix magnitude ∧
      decimal.value = if isMinus found "sign" then -magnitude else magnitude) ∧
      DecimalUsed (found.part? "magnitude") (decimal.random.map (·.magnitude))
  | .date date =>
    date.year = (found.part? "year").map String.ofList ∧ CountUsed (found.part? "month") date.month ∧
      CountUsed (found.part? "day") date.day
  | .ownList _ position => CountUsed (found.part? "start") (some position)
  | .predefined (.number n) => CountUsed (found.part? "number") (some n)
  | .predefined (.search _) => found.part? "number" = none
  | .function number startAt =>
    CountUsed (found.part? "number") number ∧ DecimalUsed (found.part? "start_at") startAt
  | .alpha _ | .expression _ | .textSelected | .invalid _ => True

/-- Every number for which a default could stand in is readable: it has ASCII digits, a count lies below its bound, and
the position in a list is not zero.  A number that is the default itself makes no difference. -/
def NumbersReadable (found : Found) : Start → Prop
  | .decimal _ =>
    ∀ text ∈ found.part? "magnitude", ∃ numeral : Numeral, numeral.text = text ∧
      (IsAscii numeral.digits ∨ numeral.value = defaultMagnitude)
  | .date _ =>
    (∀ digits ∈ found.part? "month", IsAscii digits) ∧ ∀ digits ∈ found.part? "day", IsAscii digits
  | .ownList .. =>
    ∀ digits ∈ found.part? "start",
      (IsAscii digits ∧ scriptValue digits < countBound ∧ scriptValue digits ≠ 0) ∨ scriptValue digits = 1
  | .function .. =>
    (∀ digits ∈ found.part? "number", IsAscii digits ∧ scriptValue digits < countBound) ∧
      ∀ text ∈ found.part? "start_at", ∃ numeral : Numeral, numeral.text = text ∧ IsAscii numeral.digits
  | _ => True

theorem countUsed_iff {part : Option (List Char)} (hpart : ∀ digits ∈ part, IsDigits digits) (bound : Nat) :
    CountUsed part (part.bind (readBounded? bound)) ↔
      ∀ digits ∈ part, IsAscii digits ∧ scriptValue digits < bound := by
  refine forall₂_congr fun digits hdigits => ?_
  obtain ⟨hne, hall⟩ := hpart digits hdigits
  obtain rfl : part = some digits := hdigits
  rw [Option.bind_some, readBounded?_digits hne hall]
  split
  · rename_i hread
    simp [hread]
  · rename_i hread
    simp [hread]

theorem decimalUsed_iff {part : Option (List Char)} (hpart : ∀ text ∈ part, ∃ numeral : Numeral, numeral.text = text) :
    DecimalUsed part (part.bind readDouble) ↔
      ∀ text ∈ part, ∃ numeral : Numeral, numeral.text = text ∧ IsAscii numeral.digits := by
  refine forall₂_congr fun text htext => ?_
  obtain rfl : part = some text := htext
  rw [Option.bind_some]
  constructor
  · rintro ⟨numeral, rfl, hread⟩
    rw [numeral.readDouble_text] at hread
    refine ⟨numeral, rfl, ?_⟩
    by_contra hnot
    rw [if_neg hnot] at hread
    cases hread
  · rintro ⟨numeral, rfl, hascii⟩
    exact ⟨numeral, rfl, by rw [numeral.readDouble_text, if_pos hascii]⟩

/-- Where a magnitude stands that is no number, the default does. -/
theorem spreadUsed_iff {part : Option (List Char)} (hpart : ∀ text ∈ part, ∃ numeral : Numeral, numeral.text = text) :
    DecimalUsed part (some ((part.bind readDouble).getD defaultMagnitude)) ↔
      ∀ text ∈ part, ∃ numeral : Numeral, numeral.text = text ∧
        (IsAscii numeral.digits ∨ numeral.value = defaultMagnitude) := by
  refine forall₂_congr fun text htext => exists_congr fun numeral => and_congr_right ?_
  rintro rfl
  obtain rfl : part = some numeral.text := htext
  rw [Option.bind_some, numeral.readDouble_text]
  split
  · rename_i hascii
    simp [hascii]
  · rename_i hnot
    simp [hnot, eq_comm]

theorem scriptDigit_lt (c : Char) : scriptDigit c < 10 := by
  unfold scriptDigit
  split
  · exact Nat.mod_lt _ (by decide)
  · decide

/-- Two digits stay below a hundred. -/
theorem scriptValue_lt {digits : List Char} (h : digits.length ≤ 2) : scriptValue digits < 100 := by
  match digits with
  | [] => decide
  | [c] =>
    have hc := scriptDigit_lt c
    simp only [scriptValue, List.foldl_cons, List.foldl_nil]
    omega
  | [c, d] =>
    have hc := scriptDigit_lt c
    have hd := scriptDigit_lt d
    simp only [scriptValue, List.foldl_cons, List.foldl_nil]
    omega
  | _ :: _ :: _ :: _ =>
    simp only [List.length_cons] at h
    omega

/-! ### Starts of all kinds -/

/-- The segment of the body behind a mark, or of a number without one. -/
def bodyName : Option StartMark → String
  | none => "decimal_body"
  | some .date => "date_body"
  | some .ownList => "own_body"
  | some .predefined => "predef_body"
  | some .expression => "expr_body"
  | some .function => "func_body"

/-- How a body is read. -/
def readBody (segments : Segments) (defaultStart : String) : Option StartMark → List Char → Start
  | none => readUnmarked segments defaultStart
  | some mark => mark.read segments

section Kinds

variable {delimiter : Option String} {body : List Char} {found : Found}

theorem date_numbers (h : (Segments.ofDelimiter delimiter).find? "date_body" body = some found) :
    NumbersUsed found (readDateStart (Segments.ofDelimiter delimiter) body) ↔
      NumbersReadable found (readDateStart (Segments.ofDelimiter delimiter) body) := by
  have hused {name : String} (hname : name ∈ ["month", "day"]) :
      CountUsed (found.part? name) (countIn? found name (Nat.pow 2 32)) ↔
        ∀ digits ∈ found.part? name, IsAscii digits := by
    have hparts := date_parts h hname
    refine (countUsed_iff (fun digits hdigits => (hparts digits hdigits).1) _).trans ?_
    refine forall₂_congr fun digits hdigits => and_iff_left ?_
    exact Nat.lt_trans (scriptValue_lt (hparts digits hdigits).2) (by decide)
  rw [readDateStart, h]
  exact (and_iff_right rfl).trans (and_congr (hused (by decide)) (hused (by decide)))

theorem list_numbers (h : (Segments.ofDelimiter delimiter).find? "own_body" body = some found) :
    NumbersUsed found (readOwnList (Segments.ofDelimiter delimiter) body) ↔
      NumbersReadable found (readOwnList (Segments.ofDelimiter delimiter) body) := by
  have hparts := list_parts h
  rw [readOwnList, h]
  refine forall₂_congr fun digits hdigits => ?_
  obtain ⟨hne, hall⟩ := hparts digits hdigits
  have hpart : found.part? "start" = some digits := hdigits
  rw [countIn?, hpart, Option.bind_some, readBounded?_digits hne hall, Option.some.injEq]
  by_cases hread : IsAscii digits ∧ scriptValue digits < countBound
  · obtain ⟨hascii, hlt⟩ := hread
    simp only [hascii, hlt, and_self, if_true, Option.getD_some, true_and]
    omega
  · have hnot : ¬ (IsAscii digits ∧ scriptValue digits < countBound ∧ scriptValue digits ≠ 0) :=
      fun hall => hread ⟨hall.1, hall.2.1⟩
    simp only [hread, hnot, if_false, Option.getD_none, false_or]
    omega

theorem predefined_numbers (h : (Segments.ofDelimiter delimiter).find? "predef_body" body = some found) :
    NumbersUsed found (readPredefined (Segments.ofDelimiter delimiter) body) := by
  have hparts := predefined_parts h
  cases hpart : found.part? "number" with
  | none =>
    have hread : readPredefined (Segments.ofDelimiter delimiter) body =
        .predefined (.search (firstPart found ["dquoted", "squoted", "text"])) := by
      simp only [readPredefined, h, hpart]
    rw [hread]
    exact hpart
  | some digits =>
    obtain ⟨hne, hall⟩ := hparts digits hpart
    have hread : readPredefined (Segments.ofDelimiter delimiter) body =
        if IsAscii digits ∧ scriptValue digits < countBound then .predefined (.number (scriptValue digits))
        else .invalid (.listNumber (String.ofList digits)) := by
      simp only [readPredefined, h, hpart, readBounded?_digits hne hall]
      by_cases hcount : IsAscii digits ∧ scriptValue digits < countBound <;> simp [hcount]
    rw [hread]
    split
    · intro digits' hdigits'
      obtain rfl : digits = digits' := Option.some.inj (hpart.symm.trans hdigits')
      rfl
    · trivial

theorem function_numbers (h : (Segments.ofDelimiter delimiter).find? "func_body" body = some found) :
    NumbersUsed found (readFunction (Segments.ofDelimiter delimiter) body) ↔
      NumbersReadable found (readFunction (Segments.ofDelimiter delimiter) body) := by
  obtain ⟨hnumber, hstart⟩ := function_parts h
  rw [readFunction, h]
  exact and_congr (countUsed_iff hnumber countBound) (decimalUsed_iff hstart)

/-- What is read from a decimal is its magnitude. -/
theorem magnitudeUsed (h : (Segments.ofDelimiter delimiter).find? "decimal_body" body = some found) {radix : Radix}
    {magnitude : Double} {precision : Option Nat} {digits : List Char}
    (hread : readMagnitude? found = some (radix, magnitude, precision, digits)) :
    MagnitudeUsed found radix magnitude := by
  obtain ⟨hshape, -⟩ := decimal_parts h
  obtain ⟨hint, hfrac, -⟩ := decimal_texts h
  rcases hshape with ⟨hradix, hdigits, hwhole, hplaces⟩ | ⟨hradix, hdigits, hwhole⟩
  · -- digits of a radix, which are read as a whole number
    obtain ⟨mark, hmark⟩ := Option.isSome_iff_exists.1 hradix
    obtain ⟨own, hown⟩ := Option.isSome_iff_exists.1 hdigits
    simp only [readMagnitude?, hmark, hown, Option.bind_eq_bind, Option.bind_some] at hread
    obtain ⟨n, hn, heq⟩ := Option.bind_eq_some_iff.1 hread
    simp only [Option.pure_def, Option.some.injEq, Prod.mk.injEq] at heq
    obtain ⟨rfl, rfl, -, rfl⟩ := heq
    exact .inl ⟨own, n, hown, hwhole, hplaces, (Option.filter_eq_some_iff.1 hn).1, rfl⟩
  · -- a whole number with or without places, which is read as a double
    obtain ⟨whole, hwhole⟩ := Option.isSome_iff_exists.1 hwhole
    obtain ⟨hne, hall⟩ := hint whole hwhole
    let numeral : Numeral :=
      { sign := none, whole, places := found.part? "frac", sign_eq := nofun, whole_ne_nil := hne,
        isDecimalDigit_whole := hall, isDecimalDigit_places := fun digits hdigits => (hfrac digits hdigits).2 }
    simp only [readMagnitude?, hradix, hwhole, Option.bind_eq_bind] at hread
    change (readDouble numeral.text).bind _ = _ at hread
    obtain ⟨n, hn, heq⟩ := Option.bind_eq_some_iff.1 hread
    rw [numeral.readDouble_text] at hn
    split at hn
    · simp only [Option.pure_def, Option.some.injEq, Prod.mk.injEq] at heq hn
      obtain ⟨rfl, rfl, -, -⟩ := heq
      subst hn
      exact .inr ⟨numeral, rfl, hdigits, hwhole, rfl, rfl⟩
    · cases hn

/-- A decimal is read if its magnitude is. -/
theorem exists_readDecimal? {segments : Segments} (h : segments.find? "decimal_body" body = some found) {radix : Radix}
    {magnitude : Double} {precision : Option Nat} {digits : List Char}
    (hread : readMagnitude? found = some (radix, magnitude, precision, digits)) :
    ∃ decimal, readDecimal? segments body = some decimal ∧ decimal.radix = radix ∧
      decimal.value = (if isMinus found "sign" then -magnitude else magnitude) ∧
      decimal.random = (found.part? "random").map fun _ => readSpread found := by
  rw [readDecimal?, h, Option.bind_eq_bind, Option.bind_some, hread]
  exact ⟨_, rfl, rfl, rfl, rfl⟩

theorem decimal_numbers (h : (Segments.ofDelimiter delimiter).find? "decimal_body" body = some found)
    (defaultStart : String) :
    NumbersUsed found (readUnmarked (Segments.ofDelimiter delimiter) defaultStart body) ↔
      NumbersReadable found (readUnmarked (Segments.ofDelimiter delimiter) defaultStart body) := by
  have hne : body ≠ [] := by
    rintro rfl
    have hnone : (Pattern.sequence .start decimalBodyPattern).find? [] = none := by decide
    rw [Segments.find?, pattern_decimalBody, hnone] at h
    cases h
  rw [readUnmarked, if_neg hne]
  cases hread : readMagnitude? found with
  | none =>
    -- a number that cannot be read is no start
    have hdecimal : readDecimal? (Segments.ofDelimiter delimiter) body = none := by
      rw [readDecimal?, h, Option.bind_eq_bind, Option.bind_some, hread]
      rfl
    rw [hdecimal]
    dsimp only
    split <;> exact Iff.rfl
  | some magnitude =>
    obtain ⟨radix, magnitude, precision, digits⟩ := magnitude
    obtain ⟨decimal, hdecimal, rfl, hvalue, hrandom⟩ := exists_readDecimal? h hread
    obtain ⟨-, hletter⟩ := decimal_parts h
    obtain ⟨-, -, hmagnitude⟩ := decimal_texts h
    rw [hdecimal]
    refine (and_iff_right ⟨magnitude, magnitudeUsed h hread, hvalue⟩).trans ?_
    refine Iff.trans ?_ (spreadUsed_iff hmagnitude)
    refine forall₂_congr fun text htext => ?_
    obtain ⟨letter, hletter⟩ := Option.isSome_iff_exists.1 (hletter (Option.isSome_iff_exists.2 ⟨text, htext⟩))
    rw [hrandom, hletter]
    exact Iff.rfl

/-- The numbers of a body are used if and only if they are readable. -/
theorem numbersUsed_iff {mark : Option StartMark}
    (h : (Segments.ofDelimiter delimiter).find? (bodyName mark) body = some found) (defaultStart : String) :
    NumbersUsed found (readBody (Segments.ofDelimiter delimiter) defaultStart mark body) ↔
      NumbersReadable found (readBody (Segments.ofDelimiter delimiter) defaultStart mark body) := by
  cases mark with
  | none => exact decimal_numbers h defaultStart
  | some mark =>
    cases mark with
    | date => exact date_numbers h
    | ownList => exact list_numbers h
    | predefined =>
      refine iff_of_true (predefined_numbers h) ?_
      show NumbersReadable found (readPredefined _ body)
      unfold readPredefined
      repeat' split
      all_goals trivial
    | expression =>
      show NumbersUsed found (readExpression _ body) ↔ NumbersReadable found (readExpression _ body)
      unfold readExpression
      split <;> exact Iff.rfl
    | function => exact function_numbers h

end Kinds

end SequenceNotation.Notation
