import Mathlib.Data.String.Basic
import SequenceNotation.Proofs.Number.Width
import SequenceNotation.Proofs.Script.ValueInvariant

/-!
# The size of texts

A value is capped when none of the texts in it is longer than a script may build one: neither the text
that it is, nor the string literals in its body or the variables it captured.  Operators, functions and
methods make capped values of capped ones.  Concatenation and changes of case are checked; all others
make texts that are short, or no longer than what they are made of.
-/

namespace SequenceNotation.Script

open SequenceNotation.Number SequenceNotation.Text

/-- No text in the value is longer than a script may build one. -/
inductive Value.Capped : Value → Prop
  | undefined : Capped .undefined
  | null : Capped .null
  | boolean (b : Bool) : Capped (.boolean b)
  | number (x : Double) : Capped (.number x)
  | text {s : String} (h : Fits s) : Capped (.text s)
  | function {i : Nat} {parameters : List String} {body : FunctionBody} {F : Frame}
    (hbody : ∀ t ∈ body.literals, Fits t) (hcaptured : ∀ p ∈ F, Capped p.2) :
    Capped (.function i parameters body F)

/-! ### Sizes of texts -/

theorem utf8Len_le_four_mul (text : List Char) : String.utf8Len text ≤ 4 * text.length := by
  induction text with
  | nil => exact Nat.le_refl _
  | cons c rest ih =>
    have hc := c.utf8Size_le_four
    rw [String.utf8Len, List.length_cons]
    omega

theorem fits_of_length_le {s : String} (h : s.length ≤ 100000) : Fits s := by
  have hsize := utf8Len_le_four_mul s.toList
  rw [String.utf8Len_toList, String.length_toList] at hsize
  unfold Fits maxTextBytes
  omega

/-- A number is printed with less than the script may build. -/
theorem fits_toText (x : Double) : Fits x.toText := by
  have hlength := x.length_toText_le
  unfold maxUnitsDigits at hlength
  exact fits_of_length_le (by omega)

theorem fixedPlacesArgument_le (arguments : List Value) : fixedPlacesArgument arguments ≤ 100 := by
  unfold fixedPlacesArgument Double.toInt
  split
  · decide
  · split <;> decide
  · omega

theorem fits_toFixed (arguments : List Value) (x : Double) :
    Fits (x.toFixed (fixedPlacesArgument arguments)) := by
  have hplaces := fixedPlacesArgument_le arguments
  have hlength := x.length_toFixed_le (fixedPlacesArgument arguments)
  unfold maxUnitsDigits at hlength
  exact fits_of_length_le (by omega)

theorem trim_sublist (text : List Char) : (trim text).Sublist text := by
  have hright (rest : List Char) : (trimRight rest).Sublist rest := by
    unfold trimRight
    simpa using (List.dropWhile_sublist isBlank (l := rest.reverse)).reverse
  exact (hright _).trans (List.dropWhile_sublist _)

/-- Trimming only shortens. -/
theorem Fits.trim {s : String} (h : Fits s) : Fits (String.ofList (Text.trim s.toList)) := by
  have hshorter := String.utf8Len_le_of_sublist (trim_sublist s.toList)
  rw [← String.utf8ByteSize_ofList, String.utf8Len_toList] at hshorter
  exact Nat.le_trans hshorter h

/-! ### Capped values -/

theorem Value.Capped.fits_toText {v : Value} (h : v.Capped) : Fits v.toText := by
  cases h with
  | undefined => exact (by decide : Fits "undefined")
  | null => exact (by decide : Fits "null")
  | boolean b => cases b <;> decide
  | number x => exact Script.fits_toText x
  | text hfits => exact hfits
  | function => exact (by decide : Fits "function")

/-- What methods make of a capped value without a check fits. -/
theorem MethodText.fits {target : Value} {arguments : List Value} {s : String}
    (h : MethodText target arguments s) (htarget : target.Capped) : Fits s := by
  cases h with
  | shown => exact htarget.fits_toText
  | trimmed h =>
    subst h
    cases htarget with
    | text hfits => exact hfits.trim
  | fixed h => exact fits_toFixed _ _

/-- Operators, functions and methods keep values capped. -/
theorem capped_invariant : ValueInvariant Fits fun _ => Value.Capped where
  property _ :=
    { made := fun h => by
        cases h with
        | undefined => exact .undefined
        | null => exact .null
        | boolean b => exact .boolean b
        | number x => exact .number x
        | text hfits => exact .text hfits
      fits := id
      shown := fun h => h.fits_toText
      method := fun h htarget => h.fits htarget
      function := fun h => by
        cases h with
        | function hbody hcaptured => exact ⟨⟨hbody, fun _ _ => trivial⟩, hcaptured⟩ }
  later _ h := h
  create hbody hcaptured := .function hbody hcaptured

end SequenceNotation.Script
