import SequenceNotation.Proofs.Notation.StepLiteral
import SequenceNotation.Proofs.Text.Blank

/-!
# Digits of all scripts

The notation takes the decimal digits of every script, but numbers are read from ASCII digits only.  What a text of
digits is worth is defined for all scripts here, and the readers are shown to give exactly this value for ASCII digits,
below the bound where there is one, and nothing otherwise.
-/

namespace SequenceNotation.Notation

open SequenceNotation.Text SequenceNotation.Number

/-! ### Values of digits -/

/-- What a decimal digit counts: its distance from the zero of its script. -/
def scriptDigit (c : Char) : Nat :=
  match digitRanges.find? fun (first, last) => first ≤ c.toNat && c.toNat ≤ last with
  | some (first, _) => (c.toNat - first) % 10
  | none => 0

/-- The number that a text of decimal digits stands for. -/
def scriptValue (digits : List Char) : Nat :=
  digits.foldl (fun n c => n * 10 + scriptDigit c) 0

/-- The digits of a text are ASCII digits. -/
def IsAscii (digits : List Char) : Prop :=
  ∀ c ∈ digits, c.isDigit

instance (digits : List Char) : Decidable (IsAscii digits) :=
  decidable_of_iff (digits.all Char.isDigit = true) List.all_eq_true

theorem scriptDigit_of_isDigit {c : Char} (h : c.isDigit) : scriptDigit c = c.toNat - '0'.toNat := by
  have hzero : '0'.toNat ≤ c.toNat := UInt32.le_iff_toNat_le.1 (of_decide_eq_true (Bool.and_eq_true_iff.1 h).1)
  have hnine : c.toNat ≤ '9'.toNat := UInt32.le_iff_toNat_le.1 (of_decide_eq_true (Bool.and_eq_true_iff.1 h).2)
  have hfind : digitRanges.find? (fun (first, last) => first ≤ c.toNat && c.toNat ≤ last) = some (48, 57) :=
    List.find?_cons_of_pos (by simpa using ⟨hzero, hnine⟩)
  have hlt : c.toNat - '0'.toNat < 10 := Nat.lt_of_le_of_lt (Nat.sub_le_sub_right hnine _) (by decide)
  rw [scriptDigit, hfind]
  exact Nat.mod_eq_of_lt hlt

theorem scriptValue_of_isAscii {digits : List Char} (h : IsAscii digits) : scriptValue digits = digitsValue digits := by
  refine List.foldl_ext _ _ _ fun n c hc => ?_
  rw [scriptDigit_of_isDigit (h c hc)]

/-- A decimal digit that is no ASCII digit is no ASCII character. -/
theorem le_toNat_of_foreign {c : Char} (h : isDecimalDigit c) (hforeign : c.isDigit = false) : 128 ≤ c.toNat := by
  unfold isDecimalDigit at h
  split at h
  · rw [hforeign] at h
    cases h
  · omega

theorem ne_of_isDecimalDigit {c d : Char} (hc : isDecimalDigit c) (hd : isDecimalDigit d = false) : c ≠ d := by
  rintro rfl
  rw [hc] at hd
  cases hd

theorem not_mem_of_isDecimalDigit {c : Char} (hc : isDecimalDigit c) {chars : List Char}
    (hchars : ∀ d ∈ chars, isDecimalDigit d = false) : c ∉ chars :=
  fun hmem => ne_of_isDecimalDigit hc (hchars c hmem) rfl

theorem isBlank_of_isDecimalDigit {c : Char} (h : isDecimalDigit c) : isBlank c = false := by
  unfold isDecimalDigit at h
  split at h
  · exact isBlank_of_isDigit h
  · exact inRanges_of_disjoint (by decide +kernel) h

/-- Digits of which not all are ASCII: those in front of the first one that is not, and those behind it. -/
theorem exists_foreign {digits : List Char} (hall : ∀ c ∈ digits, isDecimalDigit c) (h : ¬ IsAscii digits) :
    ∃ front c back, digits = front ++ c :: back ∧ IsAscii front ∧ isDecimalDigit c ∧ c.isDigit = false := by
  induction digits with
  | nil => exact absurd (List.forall_mem_nil _) h
  | cons c digits ih =>
    obtain ⟨hc, hrest⟩ := List.forall_mem_cons.1 hall
    cases hown : c.isDigit with
    | false => exact ⟨[], c, digits, rfl, List.forall_mem_nil _, hc, hown⟩
    | true =>
      obtain ⟨front, d, back, rfl, hfront, hd⟩ := ih hrest fun hdigits => h (List.forall_mem_cons.2 ⟨hown, hdigits⟩)
      exact ⟨c :: front, d, back, rfl, List.forall_mem_cons.2 ⟨hown, hfront⟩, hd⟩

/-! ### Counts -/

theorem radixDigit?_of_foreign {c : Char} (h : isDecimalDigit c) (hforeign : c.isDigit = false) (radix : Nat) :
    radixDigit? radix c = none := by
  have hfar := le_toNat_of_foreign h hforeign
  have hnot {first last : Char} (hlast : last.toNat < 128) : ¬ (first ≤ c ∧ c ≤ last) := by
    rintro ⟨-, hle⟩
    have hle' : c.toNat ≤ last.toNat := UInt32.le_iff_toNat_le.1 hle
    omega
  rw [radixDigit?, digitValue?, hforeign, if_neg Bool.false_ne_true, if_neg (hnot (by decide)),
    if_neg (hnot (by decide))]
  rfl

theorem readRadix?_of_not_isAscii {digits : List Char} (hall : ∀ c ∈ digits, isDecimalDigit c) (h : ¬ IsAscii digits)
    (radix : Nat) : readRadix? radix digits = none := by
  obtain ⟨front, c, back, rfl, -, hc, hforeign⟩ := exists_foreign hall h
  have hmap : (front ++ c :: back).mapM (radixDigit? radix) = none := by
    rw [List.mapM_append, List.mapM_cons, radixDigit?_of_foreign hc hforeign]
    cases front.mapM (radixDigit? radix) <;> rfl
  rw [readRadix?, hmap]
  split <;> rfl

/-- A count is read from ASCII digits below the bound, and from no other digits. -/
theorem readBounded?_digits {digits : List Char} (hne : digits ≠ []) (hall : ∀ c ∈ digits, isDecimalDigit c)
    (bound : Nat) :
    readBounded? bound digits =
      if IsAscii digits ∧ scriptValue digits < bound then some (scriptValue digits) else none := by
  have hread : readBounded? bound digits = (readRadix? 10 digits).filter (· < bound) := by
    unfold readBounded?
    split
    · rename_i rest
      exact absurd (hall '+' List.mem_cons_self) (by decide)
    · rfl
  rw [hread]
  by_cases hascii : IsAscii digits
  · rw [readRadix?_digits hne hascii, scriptValue_of_isAscii hascii]
    by_cases hlt : digitsValue digits < bound <;> simp [hascii, hlt, Option.filter]
  · rw [readRadix?_of_not_isAscii hall hascii]
    simp [hascii]

/-! ### Decimals -/

/-- A decimal with an optional sign in digits of any script. -/
structure Numeral where
  sign : Option Char
  whole : List Char
  /-- The digits behind the point, if there is one. -/
  places : Option (List Char)
  sign_eq : ∀ c ∈ sign, c = '+' ∨ c = '-'
  whole_ne_nil : whole ≠ []
  isDecimalDigit_whole : ∀ c ∈ whole, isDecimalDigit c
  isDecimalDigit_places : ∀ digits ∈ places, ∀ c ∈ digits, isDecimalDigit c

namespace Numeral

/-- All digits. -/
def digits (numeral : Numeral) : List Char :=
  numeral.whole ++ numeral.places.getD []

/-- The text without the sign. -/
def unsigned (numeral : Numeral) : List Char :=
  match numeral.places with
  | some digits => numeral.whole ++ '.' :: digits
  | none => numeral.whole

def text (numeral : Numeral) : List Char :=
  numeral.sign.toList ++ numeral.unsigned

/-- The double nearest to the decimal. -/
def value (numeral : Numeral) : Double :=
  nearestDecimal (numeral.sign = some '-') (scriptValue numeral.digits) (-((numeral.places.getD []).length : Int))

end Numeral

/-- A number ends with the digits behind its point, or with an exponent. -/
theorem readUnsigned_fraction_stop (negative : Bool) {whole front : List Char} (hwhole : IsAscii whole)
    (hfront : IsAscii front) {c : Char} (hc : c.isDigit = false) (hexponent : c ≠ 'e' ∧ c ≠ 'E') (tail : List Char) :
    readUnsigned negative (whole ++ '.' :: (front ++ c :: tail)) = none := by
  have hspan := spanDigits_eq hwhole ('.' :: (front ++ c :: tail)) rfl
  have hspan' := spanDigits_eq hfront (c :: tail) hc
  have hnone : readExponent (c :: tail) = none := by simp [readExponent, hexponent]
  simp [readUnsigned, hspan, hspan', hnone]

/-- A decimal digit begins no word and is no sign. -/
theorem readDouble_digit {sign : Option Char} (hsign : ∀ c ∈ sign, c = '+' ∨ c = '-') {d : Char}
    (hd : isDecimalDigit d) (rest : List Char) :
    readDouble (sign.toList ++ d :: rest) = readUnsigned (sign = some '-') (d :: rest) := by
  have hspan : spanSign (sign.toList ++ d :: rest) = (decide (sign = some '-'), d :: rest) := by
    cases sign with
    | some c => rcases hsign c rfl with rfl | rfl <;> rfl
    | none =>
      have hplain : isSign d = false := by
        rw [← Bool.not_eq_true]
        intro hsigned
        have heq : d = '+' ∨ d = '-' := by simpa [isSign] using hsigned
        rcases heq with rfl | rfl <;> exact absurd hd (by decide)
      exact spanSign_of_head hplain
  -- No digit of any script is a capital letter, so it is still a digit where the words are compared.
  have hlower : d.toLower = d := by
    cases hown : d.isDigit with
    | true => exact toLower_of_isDigit hown
    | false =>
      have hfar := le_toNat_of_foreign hd hown
      refine dif_neg fun hupper => ?_
      have hle : d.toNat ≤ 'Z'.toNat := UInt32.le_iff_toNat_le.1 hupper.2
      have hletter : 'Z'.toNat < 128 := by decide
      omega
  have hword {e : Char} {word : List Char} (he : isDecimalDigit e = false) :
      (d :: rest).map Char.toLower ≠ e :: word := by
    intro heq
    rw [List.map_cons, hlower] at heq
    cases heq
    rw [hd] at he
    cases he
  have hinfinity : ¬((d :: rest).map Char.toLower = "inf".toList ∨ (d :: rest).map Char.toLower = "infinity".toList) :=
    not_or.2 ⟨hword (by decide), hword (by decide)⟩
  have hnan : ¬(d :: rest).map Char.toLower = "nan".toList := hword (by decide)
  unfold readDouble
  rw [hspan]
  dsimp only
  rw [if_neg hinfinity, if_neg hnan]

namespace Numeral

theorem exists_unsigned (numeral : Numeral) : ∃ d rest, numeral.unsigned = d :: rest ∧ isDecimalDigit d := by
  obtain ⟨d, others, hwhole⟩ := List.exists_cons_of_ne_nil numeral.whole_ne_nil
  have hd : isDecimalDigit d := numeral.isDecimalDigit_whole d (by rw [hwhole]; exact List.mem_cons_self)
  unfold unsigned
  split
  · exact ⟨d, _, by rw [hwhole]; rfl, hd⟩
  · exact ⟨d, others, hwhole, hd⟩

theorem readUnsigned_of_isAscii (numeral : Numeral) (h : IsAscii numeral.digits) (negative : Bool) :
    readUnsigned negative numeral.unsigned =
      some (nearestDecimal negative (scriptValue numeral.digits) (-((numeral.places.getD []).length : Int))) := by
  obtain ⟨hwhole, hplaces⟩ := List.forall_mem_append.1 h
  rw [scriptValue_of_isAscii h, unsigned, digits]
  cases hfraction : numeral.places with
  | none =>
    rw [readUnsigned_whole negative numeral.whole_ne_nil hwhole]
    simp
  | some digits =>
    rw [hfraction] at hplaces
    exact readUnsigned_fraction negative numeral.whole_ne_nil hwhole hplaces

theorem readUnsigned_of_not_isAscii (numeral : Numeral) (h : ¬ IsAscii numeral.digits) (negative : Bool) :
    readUnsigned negative numeral.unsigned = none := by
  have hletters {c : Char} (hc : isDecimalDigit c) : c ≠ 'e' ∧ c ≠ 'E' :=
    ⟨ne_of_isDecimalDigit hc (by decide), ne_of_isDecimalDigit hc (by decide)⟩
  by_cases hwhole : IsAscii numeral.whole
  · -- the digit of another script stands behind the point
    cases hplaces : numeral.places with
    | none =>
      rw [digits, hplaces, Option.getD_none, List.append_nil] at h
      exact absurd hwhole h
    | some places =>
      have hnot : ¬ IsAscii places := fun hascii =>
        h (by rw [digits, hplaces]; exact List.forall_mem_append.2 ⟨hwhole, hascii⟩)
      obtain ⟨front, c, back, rfl, hfront, hc, hforeign⟩ :=
        exists_foreign (numeral.isDecimalDigit_places places hplaces) hnot
      rw [unsigned, hplaces]
      exact readUnsigned_fraction_stop negative hwhole hfront hforeign (hletters hc) back
  · -- it stands in the whole part, whether places follow or not
    obtain ⟨front, c, back, heq, hfront, hc, hforeign⟩ := exists_foreign numeral.isDecimalDigit_whole hwhole
    have hstop := readUnsigned_stop negative hfront hforeign (ne_of_isDecimalDigit hc (by decide)) (hletters hc)
    rw [unsigned, heq]
    split
    · rw [List.append_assoc]
      exact hstop _
    · exact hstop back

/-- A decimal is read from ASCII digits, and from no other digits. -/
theorem readDouble_text (numeral : Numeral) :
    readDouble numeral.text = if IsAscii numeral.digits then some numeral.value else none := by
  obtain ⟨d, rest, hunsigned, hd⟩ := numeral.exists_unsigned
  have hread : readDouble numeral.text = readUnsigned (numeral.sign = some '-') numeral.unsigned := by
    rw [text, hunsigned, readDouble_digit numeral.sign_eq hd]
  rw [hread]
  split
  · rename_i hascii
    exact numeral.readUnsigned_of_isAscii hascii _
  · rename_i hnot
    exact numeral.readUnsigned_of_not_isAscii hnot _

end Numeral

end SequenceNotation.Notation
