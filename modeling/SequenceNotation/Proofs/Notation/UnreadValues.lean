import SequenceNotation.Proofs.Notation.KeyByKey
import SequenceNotation.Proofs.Notation.ModifierRoundTrip
import SequenceNotation.Proofs.Notation.NumericGroups

/-!
# Values that no number can be read from

A step or a count whose value no number can be read from leaves all modifiers as they were, and so stays what the
settings say.  There is one exception: digits of other scripts than ASCII are taken for a step and for nothing else, so
that of a step in such digits the unit of time is set without the number.
-/

namespace SequenceNotation.Notation

open SequenceNotation.Text SequenceNotation.Pattern SequenceNotation.Number
open SequenceNotation.Calendar (DateUnit)

variable {delimiter : Option String}

/-! ### Steps in digits of any script -/

/-- A step in digits of any script, with the letter of its unit of time, if there is one. -/
structure ScriptStep where
  amount : Numeral
  unit : Option Char
  places_ne_nil : ∀ digits ∈ amount.places, digits ≠ []
  unit_mem : ∀ c ∈ unit, c ∈ unitLetters

theorem mem_of_holds_items {chars : List Char} {c : Char}
    (h : (CharClass.items false (chars.map fun c => .range c c)).holds c) : c ∈ chars := by
  simp only [CharClass.holds, Bool.bne_false, List.any_map, List.any_eq_true] at h
  obtain ⟨d, hd, hrange⟩ := h
  simp only [Function.comp_apply, ClassItem.holds, Bool.and_eq_true, decide_eq_true_eq] at hrange
  exact Char.le_antisymm hrange.2 hrange.1 ▸ hd

namespace ScriptStep

def text (step : ScriptStep) : List Char :=
  step.amount.text ++ step.unit.toList

/-- The unit that the letter stands for. -/
def dateUnit (step : ScriptStep) : Option DateUnit :=
  step.unit.bind fun c => unitOfLetter? [c]

theorem isDecimal (step : ScriptStep) : IsDecimal step.amount.sign step.amount.whole step.amount.places where
  sign_eq := step.amount.sign_eq
  whole_ne_nil := step.amount.whole_ne_nil
  isDecimalDigit_whole := step.amount.isDecimalDigit_whole
  places_ne_nil := step.places_ne_nil
  isDecimalDigit_places := step.amount.isDecimalDigit_places

theorem amount_text (step : ScriptStep) :
    step.amount.text = step.amount.sign.toList ++ (step.amount.whole ++ fractionText step.amount.places) := by
  rw [Numeral.text, Numeral.unsigned]
  cases step.amount.places with
  | none => rw [fractionText, List.append_nil]
  | some digits => rfl

theorem find?_text (step : ScriptStep) (delimiter : Option String) :
    ∃ found, (Segments.ofDelimiter delimiter).find? "step_value" step.text = some found ∧
      found.part? "amount" = some step.amount.text ∧ found.part? "unit" = step.unit.map ([·]) := by
  rw [text, amount_text]
  exact step.isDecimal.find?_stepValue step.unit_mem delimiter

/-- What is taken for a step is a step in digits of some script. -/
theorem exists_of_find? {value : List Char} {found : Found}
    (h : (Segments.ofDelimiter delimiter).find? "step_value" value = some found) :
    ∃ step : ScriptStep, step.text = value := by
  rw [Segments.find?, pattern_stepValue] at h
  obtain ⟨rest, hparses⟩ := parses_of_find? h
  cases hparses with
  | sequence hamount hparses =>
  cases hparses with
  | sequence hunit hfinish =>
  cases hfinish
  cases hamount with
  | named hdecimal =>
  obtain ⟨own, rfl, haccepts⟩ := hdecimal.exists_accepts
  obtain ⟨numeral, rfl, hplaces⟩ := exists_numeral_of_decimalPattern haccepts
  obtain ⟨letter, rfl, hletter⟩ := hunit.exists_accepts
  rw [List.append_nil]
  rcases hletter.optional with rfl | hletter
  · exact ⟨{ amount := numeral, unit := none, places_ne_nil := hplaces, unit_mem := by simp }, rfl⟩
  · obtain ⟨c, rfl, hc⟩ := hletter.named.one
    refine ⟨{ amount := numeral, unit := some c, places_ne_nil := hplaces, unit_mem := ?_ }, rfl⟩
    rintro _ ⟨⟩
    exact mem_of_holds_items hc

/-- Of a step the unit is always set, and the number only if it has ASCII digits. -/
theorem setStep_text (step : ScriptStep) (delimiter : Option String) (modifiers : Modifiers) :
    (modifiers.setStep (Segments.ofDelimiter delimiter) step.text).value =
      { modifiers with
        step := if IsAscii step.amount.digits then step.amount.value else modifiers.step
        dateUnit := step.dateUnit } := by
  obtain ⟨found, hfound, hamount, hunit⟩ := step.find?_text delimiter
  rw [Modifiers.setStep, hfound]
  simp only [hamount, hunit, Logged.value_pure, Option.bind_some, Numeral.readDouble_text, dateUnit, Option.bind_map]
  split <;> rfl

/-- Whether the digits of a step are ASCII digits can be seen from its text. -/
theorem isAscii_of_text {step step' : ScriptStep} (h : step.text = step'.text) (hascii : IsAscii step.amount.digits) :
    IsAscii step'.amount.digits := by
  obtain ⟨found, hfound, hamount, -⟩ := step.find?_text none
  obtain ⟨found', hfound', hamount', -⟩ := step'.find?_text none
  rw [h, hfound'] at hfound
  cases hfound
  have hread := step.amount.readDouble_text
  rw [Option.some.inj (hamount.symm.trans hamount'), step'.amount.readDouble_text, if_pos hascii] at hread
  by_contra hforeign
  rw [if_neg hforeign] at hread
  cases hread

end ScriptStep

/-! ### Counts -/

/-- What is read as a count is a positive number below the bound of counts in ASCII digits. -/
theorem exists_of_readCount? {value : List Char} {n : Nat}
    (h : readCount? (Segments.ofDelimiter delimiter) value = some n) : ∃ count : CountLiteral, count.digits = value := by
  unfold readCount? at h
  split at h
  · rename_i hmatch
    obtain ⟨found, hfound⟩ := Option.isSome_iff_exists.1 hmatch
    rw [Segments.find?, pattern_countValue] at hfound
    obtain ⟨rest, hparses⟩ := parses_of_find? hfound
    have hdigits : IsDigits value := by
      cases hparses with
      | sequence hrun hfinish =>
      cases hfinish
      obtain ⟨run, rfl, hall, hpos, -⟩ := hrun.run
      rw [List.append_nil]
      exact ⟨List.length_pos_iff.1 hpos, hall⟩
    obtain ⟨hread, hpos⟩ := Option.filter_eq_some_iff.1 h
    rw [readBounded?_digits hdigits.1 hdigits.2] at hread
    split at hread
    · rename_i hcount
      cases hread
      rw [scriptValue_of_isAscii hcount.1] at hpos hcount
      exact ⟨{ digits := value, isDigit_digits := hcount.1, value_pos := of_decide_eq_true hpos, value_lt := hcount.2 },
        rfl⟩
    · cases hread
  · cases h

/-! ### Applying a value -/

/-- The keys whose values are numbers. -/
def numericKeys : List ModifierKey :=
  [.step, .frequency, .startover, .repetition]

/-- What the modifiers are after a value with a number in it is written. -/
inductive Writes (modifiers : Modifiers) : ModifierKey → List Char → Modifiers → Prop
  | step (step : ScriptStep) (hascii : IsAscii step.amount.digits) :
    Writes modifiers .step step.text { modifiers with step := step.amount.value, dateUnit := step.dateUnit }
  | frequency (count : CountLiteral) :
    Writes modifiers .frequency count.digits { modifiers with frequency := count.value }
  | startover (count : CountLiteral) :
    Writes modifiers .startover count.digits { modifiers with startover := some count.value }
  | repetition (count : CountLiteral) :
    Writes modifiers .repetition count.digits { modifiers with repetition := some count.value }

/-- A value is applied as a whole: nothing that other keys stand for changes, a number that is written is set with its
unit, and without a number everything stays. -/
structure AppliesWhole (segments : Segments) (modifiers : Modifiers) (key : ModifierKey) (value : List Char) : Prop where
  others : ∀ other, other ≠ key → other.setting (modifiers.apply segments key value).value = other.setting modifiers
  written : ∀ modifiers', Writes modifiers key value modifiers' → (modifiers.apply segments key value).value = modifiers'
  unread : key ∈ numericKeys → (¬∃ modifiers', Writes modifiers key value modifiers') →
    (modifiers.apply segments key value).value = modifiers

/-- The value is a step in digits that are not read, with another unit than the one that is set. -/
def SetsUnitOnly (modifiers : Modifiers) (key : ModifierKey) (value : List Char) : Prop :=
  key = .step ∧ ∃ step : ScriptStep,
    step.text = value ∧ ¬IsAscii step.amount.digits ∧ step.dateUnit ≠ modifiers.dateUnit

theorem Writes.apply_eq {modifiers modifiers' : Modifiers} {key : ModifierKey} {value : List Char}
    (h : Writes modifiers key value modifiers') :
    (modifiers.apply (Segments.ofDelimiter delimiter) key value).value = modifiers' := by
  cases h with
  | step step hascii => exact (step.setStep_text delimiter modifiers).trans (by rw [if_pos hascii])
  | frequency count | startover count | repetition count => exact setCount_digits delimiter modifiers _ count _

theorem Writes.not_setsUnitOnly {modifiers modifiers' : Modifiers} {key : ModifierKey} {value : List Char}
    (h : Writes modifiers key value modifiers') : ¬SetsUnitOnly modifiers key value := by
  rintro ⟨rfl, step', htext, hforeign, -⟩
  cases h with
  | step step hascii => exact hforeign (ScriptStep.isAscii_of_text htext.symm hascii)

theorem SetsUnitOnly.apply_ne {modifiers : Modifiers} {key : ModifierKey} {value : List Char}
    (h : SetsUnitOnly modifiers key value) :
    (modifiers.apply (Segments.ofDelimiter delimiter) key value).value ≠ modifiers := by
  obtain ⟨rfl, step, rfl, -, hunit⟩ := h
  intro heq
  have hset : (modifiers.setStep (Segments.ofDelimiter delimiter) step.text).value.dateUnit = step.dateUnit := by
    rw [step.setStep_text]
  exact hunit (hset.symm.trans (congrArg Modifiers.dateUnit heq))

theorem setCount_unread {modifiers : Modifiers} {value : List Char} (h : ¬∃ count : CountLiteral, count.digits = value)
    (subject : String) (set : Nat → Modifiers) :
    (modifiers.setCount (Segments.ofDelimiter delimiter) subject value set).value = modifiers := by
  cases hread : readCount? (Segments.ofDelimiter delimiter) value with
  | none => rw [Modifiers.setCount, hread]; rfl
  | some n => exact absurd (exists_of_readCount? hread) h

/-- A value that no number can be read from changes nothing, unless it sets a unit only. -/
theorem apply_eq_self {modifiers : Modifiers} {key : ModifierKey} (hkey : key ∈ numericKeys) {value : List Char}
    (hunread : ¬∃ modifiers', Writes modifiers key value modifiers') (hunit : ¬SetsUnitOnly modifiers key value) :
    (modifiers.apply (Segments.ofDelimiter delimiter) key value).value = modifiers := by
  cases key with
  | step =>
    cases hfound : (Segments.ofDelimiter delimiter).find? "step_value" value with
    | none =>
      rw [Modifiers.apply, Modifiers.setStep, hfound]
      rfl
    | some found =>
      -- The pattern takes digits of all scripts, so a step of its form that is not read has digits of another one.
      obtain ⟨step, rfl⟩ := ScriptStep.exists_of_find? hfound
      have hforeign : ¬IsAscii step.amount.digits := fun hascii => hunread ⟨_, .step step hascii⟩
      have hsame : step.dateUnit = modifiers.dateUnit := by
        by_contra hne
        exact hunit ⟨rfl, step, rfl, hforeign, hne⟩
      refine (step.setStep_text delimiter modifiers).trans ?_
      rw [if_neg hforeign, hsame]
  | frequency =>
    refine setCount_unread ?_ _ _
    rintro ⟨count, rfl⟩
    exact hunread ⟨_, .frequency count⟩
  | startover =>
    refine setCount_unread ?_ _ _
    rintro ⟨count, rfl⟩
    exact hunread ⟨_, .startover count⟩
  | repetition =>
    refine setCount_unread ?_ _ _
    rintro ⟨count, rfl⟩
    exact hunread ⟨_, .repetition count⟩
  | format | expression | stop | options => exact absurd hkey (by decide)

theorem appliesWhole_iff (modifiers : Modifiers) (key : ModifierKey) (value : List Char) :
    AppliesWhole (Segments.ofDelimiter delimiter) modifiers key value ↔ ¬SetsUnitOnly modifiers key value := by
  constructor
  · intro hwhole hunit
    refine hunit.apply_ne (hwhole.unread ?_ fun ⟨_, hwrites⟩ => hwrites.not_setsUnitOnly hunit)
    rw [hunit.1]
    exact .head _
  · intro hunit
    exact { others := fun other hne => Modifiers.setting_apply_of_ne hne modifiers value
            written := fun _ hwrites => hwrites.apply_eq
            unread := fun hkey hunread => apply_eq_self hkey hunread hunit }

/-! ### Values in a line -/

open Modifiers (applyValue? givenValue? setting_extract)

/-- A number is the one that is written or the one of the settings: the written one, with its unit, if it can be read,
and else the one of the settings, without a unit. -/
def WrittenOrDefault (segments : Segments) (settings : Settings) (remainder : String) (key : ModifierKey) : Prop :=
  let defaults := Modifiers.ofSettings settings
  let setting := key.setting (Modifiers.extract segments settings remainder).value
  (∃ value ∈ givenValue? segments remainder key, ∃ modifiers, Writes defaults key value modifiers ∧
      setting = key.setting modifiers) ∨
    (∀ value ∈ givenValue? segments remainder key, ¬∃ modifiers, Writes defaults key value modifiers) ∧
      setting = key.setting defaults

theorem apply_eq_self_iff {modifiers : Modifiers} {segments : Segments} {key : ModifierKey} {value : List Char} :
    (modifiers.apply segments key value).value = modifiers ↔
      key.setting (modifiers.apply segments key value).value = key.setting modifiers := by
  refine ⟨congrArg key.setting, fun hown => Modifiers.eq_iff_setting.2 fun other => ?_⟩
  by_cases hother : other = key
  · exact hother ▸ hown
  · exact Modifiers.setting_apply_of_ne hother modifiers value

/-- The number for a key is the one that is written or the one of the settings, unless the value sets a unit only. -/
theorem writtenOrDefault_iff (settings : Settings) (remainder : String) {key : ModifierKey} (hkey : key ∈ numericKeys) :
    WrittenOrDefault (Segments.ofDelimiter delimiter) settings remainder key ↔
      ∀ value ∈ givenValue? (Segments.ofDelimiter delimiter) remainder key,
        ¬SetsUnitOnly (Modifiers.ofSettings settings) key value := by
  simp only [WrittenOrDefault, setting_extract]
  cases givenValue? (Segments.ofDelimiter delimiter) remainder key with
  | none => simp [applyValue?]
  | some value =>
    simp only [Option.mem_def, Option.some.injEq, exists_eq_left', forall_eq', applyValue?]
    constructor
    · rintro (⟨modifiers, hwrites, -⟩ | ⟨hunread, hdefault⟩)
      · exact hwrites.not_setsUnitOnly
      · exact fun hunit => hunit.apply_ne (apply_eq_self_iff.2 hdefault)
    · intro hunit
      by_cases hread : ∃ modifiers, Writes (Modifiers.ofSettings settings) key value modifiers
      · obtain ⟨modifiers, hwrites⟩ := hread
        exact .inl ⟨modifiers, hwrites, congrArg key.setting hwrites.apply_eq⟩
      · exact .inr ⟨hread, congrArg key.setting (apply_eq_self hkey hread hunit)⟩

/-- A value that no number can be read from changes nothing, and else only what its key stands for changes, and behind a
start each number is the written one or the one of the settings: exactly unless the value is a step in digits that are
not read, with a unit that is not set already. -/
theorem unread_values_iff (delimiter : Option String) :
    (∀ modifiers key value,
        AppliesWhole (Segments.ofDelimiter delimiter) modifiers key value ↔ ¬SetsUnitOnly modifiers key value) ∧
      ∀ settings remainder, ∀ key ∈ numericKeys,
        WrittenOrDefault (Segments.ofDelimiter delimiter) settings remainder key ↔
          ∀ value ∈ givenValue? (Segments.ofDelimiter delimiter) remainder key,
            ¬SetsUnitOnly (Modifiers.ofSettings settings) key value :=
  ⟨appliesWhole_iff, fun settings remainder _ hkey => writtenOrDefault_iff settings remainder hkey⟩

/-- A count above the bound, which is taken for a count and not read. -/
theorem unread_values_iff_count :
    .repetition ∈ numericKeys ∧
      (∀ modifiers, AppliesWhole (Segments.ofDelimiter none) modifiers .repetition "18446744073709551616".toList ↔
        ¬SetsUnitOnly modifiers .repetition "18446744073709551616".toList) ∧
      (WrittenOrDefault (Segments.ofDelimiter none) { repetition := some 2 } " #18446744073709551616 *3 1w" .repetition ↔
        ∀ value ∈ givenValue? (Segments.ofDelimiter none) " #18446744073709551616 *3 1w" .repetition,
          ¬SetsUnitOnly (Modifiers.ofSettings { repetition := some 2 }) .repetition value) := by
  have hkey : .repetition ∈ numericKeys := by decide
  have hboth := unread_values_iff none
  exact ⟨hkey, fun modifiers => hboth.1 modifiers .repetition _, hboth.2 _ _ .repetition hkey⟩

theorem eq_of_mem_no_sign : ∀ c ∈ (none : Option Char), c = '+' ∨ c = '-' := nofun

/-- Three weeks in Arabic digits. -/
def arabicWeeks : ScriptStep where
  amount :=
    { sign := none
      whole := ['٣']
      places := none
      sign_eq := eq_of_mem_no_sign
      whole_ne_nil := List.cons_ne_nil _ _
      isDecimalDigit_whole := List.forall_mem_singleton.2 rfl
      isDecimalDigit_places := by rintro _ ⟨⟩ }
  unit := some 'w'
  places_ne_nil := by rintro _ ⟨⟩
  unit_mem := by rintro _ ⟨⟩; exact .tail _ (.head _)

/-- Three weeks in Arabic digits are no step that can be read, and still set the unit. -/
theorem arabic_weeks_set_unit :
    (¬∃ modifiers, Writes (Modifiers.ofSettings {}) .step "٣w".toList modifiers) ∧
      ((Modifiers.ofSettings {}).apply (Segments.ofDelimiter none) .step "٣w".toList).value =
        { Modifiers.ofSettings {} with dateUnit := some .week } ∧
      ModifierKey.step.setting (Modifiers.extract (Segments.ofDelimiter none) {} " steps:٣w").value =
        ((Modifiers.ofSettings {}).step, some .week) := by
  have htext : arabicWeeks.text = "٣w".toList := by decide
  have hforeign : ¬IsAscii arabicWeeks.amount.digits := by decide
  have hunit : SetsUnitOnly (Modifiers.ofSettings {}) .step "٣w".toList :=
    ⟨rfl, arabicWeeks, htext, hforeign, by decide⟩
  have hset : ((Modifiers.ofSettings {}).apply (Segments.ofDelimiter none) .step "٣w".toList).value =
      { Modifiers.ofSettings {} with dateUnit := some .week } := by
    have hown := arabicWeeks.setStep_text none (Modifiers.ofSettings {})
    rw [htext, if_neg hforeign] at hown
    exact hown
  have halone : StandsAlone "٣w".toList :=
    { closed := by decide, head := by rintro _ ⟨⟩; decide, shown := forall_of_all (by decide) }
  have hkey : (.step, "steps:".toList) ∈ spelledKeys := by decide
  have hgap : ∀ c ∈ [' '], closer? c = none ∧ ∀ spelled ∈ spelledKeys, c ∉ spelled.2 :=
    List.forall_mem_singleton.2 ⟨by decide, not_mem_spelling_of_isBlank (by decide)⟩
  have hlength : valueLength (Segments.ofDelimiter none) (mask ("٣w".toList ++ [])) ("٣w".toList ++ []) =
      byteLength "٣w".toList := halone.valueLength_eq (.inl rfl)
  have hpiece := writtenModifiers_piece hkey hgap (by decide) (mask_append halone.closed []) hlength
  have hgiven : givenValue? (Segments.ofDelimiter none) " steps:٣w" .step = some "٣w".toList := by
    have hline : " steps:٣w".toList = [' '] ++ ("steps:".toList ++ ("٣w".toList ++ [])) := by decide
    rw [givenValue?, hline, hpiece]
    decide
  refine ⟨?_, hset, ?_⟩
  · rintro ⟨_, hwrites⟩
    exact hwrites.not_setsUnitOnly hunit
  · rw [setting_extract, hgiven, applyValue?, hset]
    rfl

end SequenceNotation.Notation
