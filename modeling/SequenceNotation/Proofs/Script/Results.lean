import SequenceNotation.Script.Builtin

/-!
# Results of operations

No operator, function or method gives a function.  Where it gives a text, that is one whose size was
checked, or one made of an operand or argument in a way that needs no check.
-/

namespace SequenceNotation.Script

open SequenceNotation.Text

/-- A text no longer than a script may build one. -/
def Fits (text : String) : Prop :=
  text.utf8ByteSize ≤ maxTextBytes

instance (text : String) : Decidable (Fits text) :=
  inferInstanceAs (Decidable (_ ≤ _))

/-- A value that is no function, and a text only if one of which `P` holds. -/
inductive Value.Made (P : String → Prop) : Value → Prop
  | undefined : Made P .undefined
  | null : Made P .null
  | boolean (b : Bool) : Made P (.boolean b)
  | number (x : Number.Double) : Made P (.number x)
  | text {s : String} (h : P s) : Made P (.text s)

theorem Value.Made.mono {P Q : String → Prop} {v : Value} (h : v.Made P) (hPQ : ∀ s, P s → Q s) :
    v.Made Q := by
  cases h with
  | undefined => exact .undefined
  | null => exact .null
  | boolean b => exact .boolean b
  | number x => exact .number x
  | text h => exact .text (hPQ _ h)

theorem fits_typeName (v : Value) : Fits v.typeName := by
  cases v <;> (simp only [Value.typeName]; decide)

theorem made_of_checkedText {s : String} {v : Value} (h : checkedText s = .ok v) : v.Made Fits := by
  unfold checkedText at h
  split at h
  · cases h
  · rename_i hfits
    cases h
    exact .text (Nat.le_of_not_lt hfits)

theorem made_of_applyBinary {operator : BinaryOperator} {a b v : Value}
    (h : applyBinary operator a b = .ok v) : v.Made Fits := by
  cases operator with
  | add =>
    unfold applyBinary addValues at h
    dsimp only at h
    split at h
    · exact made_of_checkedText h
    · exact made_of_checkedText h
    · cases h
      exact .number _
  | subtract | multiply | divide | remainder | power =>
    cases h
    exact .number _
  | _ =>
    cases h
    exact .boolean _

/-- Only the conversion to a text gives a text. -/
theorem made_of_applyBuiltin? {name : String} {arguments : List Value} {v : Value}
    (h : applyBuiltin? name arguments = some v) : v.Made (· = textArgument arguments 0) := by
  unfold applyBuiltin? at h
  dsimp only at h
  split at h <;> cases h
  all_goals first | exact .number _ | exact .boolean _ | exact .text rfl

/-- The texts that methods make without a check of their size. -/
inductive MethodText (target : Value) (arguments : List Value) : String → Prop
  | shown : MethodText target arguments target.toText
  | trimmed {s : String} (h : target = .text s) :
    MethodText target arguments (String.ofList (trim s.toList))
  | fixed {x : Number.Double} (h : target = .number x) :
    MethodText target arguments (x.toFixed (fixedPlacesArgument arguments))

theorem made_of_applyMethod {target : Value} {name : String} {arguments : List Value} {v : Value}
    (h : applyMethod target name arguments = .ok v) :
    v.Made fun s => Fits s ∨ MethodText target arguments s := by
  have hchecked {s : String} (h : checkedText s = .ok v) :
      v.Made fun s => Fits s ∨ MethodText target arguments s :=
    (made_of_checkedText h).mono fun _ => .inl
  unfold applyMethod at h
  split at h
  · exact hchecked h
  · exact hchecked h
  · cases h
    exact .text (.inr (.trimmed rfl))
  · cases h
    exact .text (.inr (.fixed rfl))
  · cases h
    exact .text (.inr .shown)
  · cases h

theorem made_of_memberOf {target v : Value} {property : String}
    (h : memberOf target property = .ok v) : v.Made fun _ => False := by
  unfold memberOf at h
  split at h <;> cases h
  · exact .number _
  · exact .undefined

end SequenceNotation.Script
