import SequenceNotation.Proofs.Notation.StepLiteral

/-!
# Modifiers key by key

Applying a written modifier changes what its key stands for and nothing else, and of several modifiers with one key
only the first one counts; so modifiers can be compared key by key.  How a value is read does not depend on the
user's delimiter.
-/

namespace SequenceNotation.Notation

open SequenceNotation.Text SequenceNotation.Pattern SequenceNotation.Number
open SequenceNotation.Calendar (DateUnit)

/-! ### What a key stands for -/

namespace ModifierKey

/-- The type of what a key stands for. -/
def Setting : ModifierKey → Type
  | step => Double × Option DateUnit
  | format => Option String
  | frequency => Nat
  | startover | repetition => Option Nat
  | expression | stop | options => String

/-- What a key stands for among modifiers. -/
def setting : (key : ModifierKey) → Modifiers → key.Setting
  | step, modifiers => (modifiers.step, modifiers.dateUnit)
  | format, modifiers => modifiers.format
  | frequency, modifiers => modifiers.frequency
  | startover, modifiers => modifiers.startover
  | repetition, modifiers => modifiers.repetition
  | expression, modifiers => modifiers.expression
  | stop, modifiers => modifiers.stopExpression
  | options, modifiers => modifiers.options

end ModifierKey

namespace Modifiers

theorem eq_iff_setting {modifiers modifiers' : Modifiers} :
    modifiers = modifiers' ↔ ∀ key : ModifierKey, key.setting modifiers = key.setting modifiers' := by
  refine ⟨fun h key => by rw [h], fun h => ?_⟩
  obtain ⟨hstep, hunit⟩ := Prod.mk.inj (h .step)
  have hformat : modifiers.format = modifiers'.format := h .format
  have hfrequency : modifiers.frequency = modifiers'.frequency := h .frequency
  have hstartover : modifiers.startover = modifiers'.startover := h .startover
  have hrepetition : modifiers.repetition = modifiers'.repetition := h .repetition
  have hexpression : modifiers.expression = modifiers'.expression := h .expression
  have hstop : modifiers.stopExpression = modifiers'.stopExpression := h .stop
  have hoptions : modifiers.options = modifiers'.options := h .options
  cases modifiers
  cases modifiers'
  congr

variable {segments : Segments} {key : ModifierKey}

theorem setting_setCount_of_ne {modifiers : Modifiers} {set : Nat → Modifiers}
    (h : ∀ n, key.setting (set n) = key.setting modifiers) (subject : String) (value : List Char) :
    key.setting (modifiers.setCount segments subject value set).value = key.setting modifiers := by
  unfold setCount
  split
  · exact h _
  · rfl

/-- Applying a modifier changes nothing that other keys stand for. -/
theorem setting_apply_of_ne {key' : ModifierKey} (h : key ≠ key') (modifiers : Modifiers) (value : List Char) :
    key.setting (modifiers.apply segments key' value).value = key.setting modifiers := by
  cases key' with
  | step =>
    show key.setting (modifiers.setStep segments value).value = _
    unfold setStep
    split
    · cases key <;> first | rfl | exact absurd h (by decide)
    · rfl
  | frequency | startover | repetition =>
    refine setting_setCount_of_ne (fun n => ?_) _ value
    cases key <;> first | rfl | exact absurd h (by decide)
  | format =>
    show key.setting (if value = [] then modifiers else _) = _
    split
    · rfl
    · cases key <;> first | rfl | exact absurd h (by decide)
  | expression | stop | options =>
    cases key <;> first | rfl | exact absurd h (by decide)

/-- What a key stands for after it is applied depends on nothing else. -/
theorem setting_apply_congr {modifiers modifiers' : Modifiers} (h : key.setting modifiers = key.setting modifiers')
    (value : List Char) :
    key.setting (modifiers.apply segments key value).value = key.setting (modifiers'.apply segments key value).value := by
  have hcount {subject : String} {set set' : Nat → Modifiers} (hset : ∀ n, key.setting (set n) = key.setting (set' n)) :
      key.setting (modifiers.setCount segments subject value set).value =
        key.setting (modifiers'.setCount segments subject value set').value := by
    unfold setCount
    split
    · exact hset _
    · exact h
  cases key with
  | step =>
    show ModifierKey.step.setting (modifiers.setStep segments value).value =
      ModifierKey.step.setting (modifiers'.setStep segments value).value
    have hstep : modifiers.step = modifiers'.step := (Prod.mk.inj h).1
    unfold setStep
    split
    · rw [hstep]
      rfl
    · exact h
  | frequency | startover | repetition => exact hcount fun _ => rfl
  | format =>
    show ModifierKey.format.setting (if value = [] then modifiers else _) =
      ModifierKey.format.setting (if value = [] then modifiers' else _)
    split
    · exact h
    · rfl
  | expression | stop | options => rfl

theorem setting_applyAll_of_seen {modifiers : Modifiers} {seen : List ModifierKey} (h : key ∈ seen)
    (written : List WrittenModifier) :
    key.setting (modifiers.applyAll segments seen written).value = key.setting modifiers := by
  induction written generalizing modifiers seen with
  | nil => rfl
  | cons first rest ih =>
    rw [applyAll]
    split
    · exact ih h
    · rename_i hnew
      have hne : key ≠ first.key := fun heq => hnew (heq ▸ h)
      exact (ih (List.mem_cons_of_mem _ h)).trans (setting_apply_of_ne hne modifiers first.value)

/-- The modifiers after a value, if there is one, is applied. -/
def applyValue? (segments : Segments) (modifiers : Modifiers) (key : ModifierKey) : Option (List Char) → Modifiers
  | some value => (modifiers.apply segments key value).value
  | none => modifiers

/-- The value of the first written modifier with a key. -/
def firstValue? (written : List WrittenModifier) (key : ModifierKey) : Option (List Char) :=
  (written.find? (·.key = key)).map (·.value)

/-- Of the written modifiers with a key the first one counts. -/
theorem setting_applyAll {modifiers : Modifiers} {seen : List ModifierKey} (h : key ∉ seen)
    (written : List WrittenModifier) :
    key.setting (modifiers.applyAll segments seen written).value =
      key.setting (applyValue? segments modifiers key (firstValue? written key)) := by
  induction written generalizing modifiers seen with
  | nil => rfl
  | cons first rest ih =>
    by_cases hkey : first.key = key
    · have hfirst : firstValue? (first :: rest) key = some first.value := by
        simp [firstValue?, hkey]
      rw [applyAll, if_neg (hkey ▸ h), hfirst, hkey]
      exact setting_applyAll_of_seen List.mem_cons_self rest
    · have hrest : firstValue? (first :: rest) key = firstValue? rest key := by
        simp [firstValue?, hkey]
      rw [applyAll, hrest]
      split
      · exact ih h
      · have hnew : key ∉ first.key :: seen := fun hmem =>
          (List.mem_cons.1 hmem).elim (fun heq => hkey heq.symm) h
        refine (ih hnew).trans ?_
        cases firstValue? rest key with
        | none => exact setting_apply_of_ne (Ne.symm hkey) modifiers first.value
        | some value => exact setting_apply_congr (setting_apply_of_ne (Ne.symm hkey) modifiers first.value) value

/-- The value for a key in the text behind a start: that of its first modifier, or for the step the first word outside
of all modifiers. -/
def givenValue? (segments : Segments) (remainder : String) (key : ModifierKey) : Option (List Char) :=
  let (written, outside) := writtenModifiers segments (mask remainder.toList) remainder.toList
  (firstValue? written key).or (if key = .step then firstWord? outside else none)

theorem givenValue?_of_ne {key : ModifierKey} (hkey : key ≠ .step) (segments : Segments) (remainder : String) :
    givenValue? segments remainder key =
      firstValue? (writtenModifiers segments (mask remainder.toList) remainder.toList).1 key := by
  simp only [givenValue?, if_neg hkey, Option.or_none]

/-- What a key stands for behind a start comes from the value that is given for it, and from the settings. -/
theorem setting_extract (segments : Segments) (settings : Settings) (remainder : String) (key : ModifierKey) :
    key.setting (extract segments settings remainder).value =
      key.setting (applyValue? segments (ofSettings settings) key (givenValue? segments remainder key)) := by
  simp only [givenValue?, extract, Logged.value_bind, Logged.value_pure]
  generalize writtenModifiers segments (mask remainder.toList) remainder.toList = both
  obtain ⟨written, outside⟩ := both
  dsimp only
  have hall (modifiers : Modifiers) (key : ModifierKey) :
      key.setting (modifiers.applyAll segments [] written).value =
        key.setting (applyValue? segments modifiers key (firstValue? written key)) :=
    setting_applyAll List.not_mem_nil written
  by_cases hkey : key = .step
  · -- a bare word is the step only if no step was written
    subst hkey
    have hany : written.any (·.key = .step) = (firstValue? written .step).isSome := by
      rw [firstValue?, Option.isSome_map, List.isSome_find?]
    have hwritten := hall (ofSettings settings) .step
    rw [applyBareStep, if_pos rfl, hany]
    cases hfirst : firstValue? written .step with
    | some value =>
      rw [hfirst] at hwritten
      exact hwritten
    | none =>
      rw [hfirst] at hwritten
      cases firstWord? outside with
      | none => exact hwritten
      | some word => exact setting_apply_congr hwritten word
  · rw [if_neg hkey, Option.or_none, ← hall]
    unfold applyBareStep
    split
    · rfl
    · split
      · exact setting_apply_of_ne hkey _ _
      · rfl

/-! ### Values and the delimiter -/

/-- No delimiter changes how a value is read. -/
theorem apply_fixed (delimiter delimiter' : Option String) (modifiers : Modifiers) (key : ModifierKey)
    (value : List Char) :
    modifiers.apply (Segments.ofDelimiter delimiter) key value =
      modifiers.apply (Segments.ofDelimiter delimiter') key value := by
  have hstepName : "step_value" ∈ fixedNames := by decide
  have hcountName : "count_value" ∈ fixedNames := by decide
  have hcount : readCount? (Segments.ofDelimiter delimiter) value = readCount? (Segments.ofDelimiter delimiter') value := by
    rw [readCount?, find?_fixed hcountName delimiter delimiter' value, readCount?]
  cases key with
  | step => rw [apply, setStep, find?_fixed hstepName delimiter delimiter' value, apply, setStep]
  | frequency | startover | repetition => rw [apply, setCount, hcount, apply, setCount]
  | format | expression | stop | options => rw [apply, apply]

theorem applyAll_fixed (delimiter delimiter' : Option String) (modifiers : Modifiers) (seen : List ModifierKey)
    (written : List WrittenModifier) :
    modifiers.applyAll (Segments.ofDelimiter delimiter) seen written =
      modifiers.applyAll (Segments.ofDelimiter delimiter') seen written := by
  induction written generalizing modifiers seen with
  | nil => rw [applyAll, applyAll]
  | cons first rest ih =>
    rw [applyAll, applyAll, apply_fixed delimiter delimiter']
    simp only [ih]

end Modifiers

/-! ### Values that cannot be read -/

/-- A text that begins like no number: it is empty, or its first character is neither a digit nor a sign. -/
structure BeginsNoNumber (value : List Char) : Prop where
  no_digit : value.head?.any CharClass.digit.holds = false
  no_sign : value.head?.any signClass.holds = false

theorem BeginsNoNumber.find?_stepValue {value : List Char} (h : BeginsNoNumber value) (delimiter : Option String) :
    (Segments.ofDelimiter delimiter).find? "step_value" value = none := by
  rw [Segments.find?, pattern_stepValue, find?_start]
  exact (matchAt_optional_none (matchAt_one_none h.no_sign ..)).trans (matchAt_run_none h.no_digit ..)

theorem BeginsNoNumber.find?_countValue {value : List Char} (h : BeginsNoNumber value) (delimiter : Option String) :
    (Segments.ofDelimiter delimiter).find? "count_value" value = none := by
  rw [Segments.find?, pattern_countValue, find?_start]
  exact matchAt_run_none h.no_digit ..

/-- Without a number the step and the counts stay. -/
theorem Modifiers.apply_unread (delimiter : Option String) (modifiers : Modifiers) {key : ModifierKey}
    (hkey : key ∈ [.step, .frequency, .startover, .repetition]) {value : List Char} (h : BeginsNoNumber value) :
    (modifiers.apply (Segments.ofDelimiter delimiter) key value).value = modifiers := by
  have hcount (subject : String) (set : Nat → Modifiers) :
      (modifiers.setCount (Segments.ofDelimiter delimiter) subject value set).value = modifiers := by
    rw [setCount, readCount?, h.find?_countValue]
    rfl
  cases key with
  | step =>
    rw [apply, setStep, h.find?_stepValue]
    rfl
  | frequency | startover | repetition => exact hcount _ _
  | format | expression | stop | options => exact absurd hkey (by decide)

end SequenceNotation.Notation
