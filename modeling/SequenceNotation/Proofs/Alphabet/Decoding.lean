import SequenceNotation.Proofs.Alphabet.Counting

/-!
# Moved and decoded words

Moving a word adds to its number, and no word stands in front of the empty one.  A number of 128 bits is decoded by
moving the empty word, but its last bit counts as a sign on the way: the numbers below `2 ^ 127` have their words, and
all others have the empty one.
-/

namespace SequenceNotation.Alphabet

variable {alphabet : Alphabet}

/-! ### Moving -/

/-- A word over an alphabet of two letters at least is moved to the word of the sum, and nowhere exactly if the sum is
below zero.  Only the sum zero gives the empty word. -/
theorem shift?_adds (alphabet : Alphabet) (h : 2 ≤ alphabet.size) (digits : List Nat)
    (hdigits : AreDigits alphabet.size digits) (delta : Int) :
    (alphabet.shift? digits delta = none ↔ digitsNumber alphabet.size digits + delta < 0) ∧
      (0 ≤ digitsNumber alphabet.size digits + delta →
        ∃ moved, alphabet.shift? digits delta = some moved ∧ AreDigits alphabet.size moved ∧
          (digitsNumber alphabet.size moved : Int) = digitsNumber alphabet.size digits + delta ∧
          (moved = [] ↔ digitsNumber alphabet.size digits + delta = 0)) := by
  rw [shift?_eq h hdigits]
  generalize (digitsNumber alphabet.size digits : Int) + delta = sum
  constructor
  · split
    · rename_i hpos
      exact iff_of_false (Option.some_ne_none _) (by omega)
    · rename_i hneg
      exact iff_of_true rfl (by omega)
  · intro hpos
    have hmoved : AreDigits alphabet.size (numberDigits alphabet.size sum.toNat) := areDigits_numberDigits (by omega) _
    have hnumber := digitsNumber_numberDigits alphabet.size sum.toNat
    refine ⟨_, if_pos hpos, hmoved, by omega, ?_⟩
    rw [← digitsNumber_inj hmoved (areDigits_nil _), hnumber]
    show sum.toNat = 0 ↔ sum = 0
    omega

/-- Three letters of value one each are moved back with a borrow, and not beyond the empty word. -/
theorem shift?_adds_borrow :
    (2 ≤ twoLetters.size ∧ AreDigits twoLetters.size [1, 1, 1] ∧ digitsNumber twoLetters.size [1, 1, 1] = 7) ∧
      (∃ moved, twoLetters.shift? [1, 1, 1] (-3) = some moved ∧ AreDigits twoLetters.size moved ∧
        (digitsNumber twoLetters.size moved : Int) = 4 ∧ moved ≠ []) ∧
      twoLetters.shift? [1, 1, 1] (-8) = none := by
  have hsize : 2 ≤ twoLetters.size := by decide
  have hdigits : AreDigits twoLetters.size [1, 1, 1] := by simp [AreDigits]; decide
  have hnumber : digitsNumber twoLetters.size [1, 1, 1] = 7 := by decide
  obtain ⟨moved, hmoved, hplaces, hvalue, hempty⟩ :=
    (shift?_adds twoLetters hsize [1, 1, 1] hdigits (-3)).2 (by rw [hnumber]; decide)
  have hnone := (shift?_adds twoLetters hsize [1, 1, 1] hdigits (-8)).1
  rw [hnumber] at hvalue hempty hnone
  refine ⟨⟨hsize, hdigits, hnumber⟩, ⟨moved, hmoved, hplaces, hvalue, ?_⟩, hnone.2 (by decide)⟩
  exact fun hnil => absurd (hempty.1 hnil) (by decide)

/-! ### Decoding -/

theorem spell_eq_empty_iff {digits : List Nat} (h : AreDigits alphabet.size digits) :
    alphabet.spell digits = "" ↔ digits = [] := by
  constructor
  · intro hempty
    rw [← (consists_spell h).2, hempty]
    rfl
  · rintro rfl
    rfl

/-- Decoding takes a number for a signed one of 128 bits. -/
theorem decode_eq (h : 2 ≤ alphabet.size) {n : Nat} (hn : n < 2 ^ 128) :
    alphabet.decode n = if n < 2 ^ 127 then alphabet.spell (numberDigits alphabet.size n) else "" := by
  have hshift (delta : Int) : alphabet.shift? [] delta =
      if 0 ≤ delta then some (numberDigits alphabet.size delta.toNat) else none := by
    have hown := shift?_eq h (areDigits_nil alphabet.size) delta
    rwa [show digitsNumber alphabet.size [] = 0 from rfl, Int.natCast_zero, Int.zero_add] at hown
  have hpow : Nat.pow 2 128 = 2 ^ 128 := rfl
  rw [decode, hshift, hpow]
  by_cases hsmall : n < 2 ^ 127
  · have hsigned : (n : Int).bmod (2 ^ 128) = n := Int.bmod_eq_of_le (by omega) (by omega)
    rw [hsigned, if_pos (by omega), if_pos hsmall, Int.toNat_natCast]
  · have hsigned : (n : Int).bmod (2 ^ 128) = n - 2 ^ 128 := by
      rw [Int.bmod_def, Int.emod_eq_of_lt (by omega) (by omega)]
      exact if_neg (by omega)
    rw [hsigned, if_neg (by omega), if_neg hsmall]

/-- Over an alphabet of two letters at least, a number of 128 bits is decoded to its word if and only if it lies below
`2 ^ 127`.  Below this bound different numbers have different words, and only zero has the empty one, which all numbers
from the bound on have too. -/
theorem decode_word_iff (alphabet : Alphabet) (h : 2 ≤ alphabet.size) :
    (∀ n < 2 ^ 128, alphabet.Consists (alphabet.decode n) ∧
        digitsNumber alphabet.size (alphabet.places (alphabet.decode n)) = n ↔ n < 2 ^ 127) ∧
      (∀ m < 2 ^ 127, ∀ n < 2 ^ 127, alphabet.decode m = alphabet.decode n → m = n) ∧
      ∀ n < 2 ^ 128, alphabet.decode n = "" ↔ n = 0 ∨ 2 ^ 127 ≤ n := by
  have hdigits := @areDigits_numberDigits alphabet.size (by omega)
  have hspelled (n : Nat) := consists_spell (hdigits n)
  have hword {n : Nat} (hn : n < 2 ^ 127) :
      alphabet.decode n = alphabet.spell (numberDigits alphabet.size n) := by
    rw [decode_eq h (by omega), if_pos hn]
  have hnumber {n : Nat} (hn : n < 2 ^ 127) :
      digitsNumber alphabet.size (alphabet.places (alphabet.decode n)) = n := by
    rw [hword hn, (hspelled n).2, digitsNumber_numberDigits]
  have hempty {n : Nat} (hn : n < 2 ^ 128) (hlarge : ¬ n < 2 ^ 127) : alphabet.decode n = "" := by
    rw [decode_eq h hn, if_neg hlarge]
  refine ⟨fun n hn => ⟨?_, fun hsmall => ?_⟩, fun m hm n hn heq => ?_, fun n hn => ?_⟩
  · rintro ⟨-, hvalue⟩
    -- The empty word of a large number stands for zero.
    by_contra hlarge
    rw [hempty hn hlarge, show digitsNumber alphabet.size (alphabet.places "") = 0 from rfl] at hvalue
    omega
  · rw [hnumber hsmall, hword hsmall]
    exact ⟨(hspelled n).1, rfl⟩
  · rw [← hnumber hm, heq, hnumber hn]
  · by_cases hsmall : n < 2 ^ 127
    · rw [hword hsmall, spell_eq_empty_iff (hdigits n), ← digitsNumber_inj (hdigits n) (areDigits_nil _),
        digitsNumber_numberDigits]
      show n = 0 ↔ _
      omega
    · exact iff_of_true (hempty hn hsmall) (.inr (by omega))

/-- The last number below the bound, and those behind it. -/
theorem decode_word_iff_two_letters :
    2 ≤ twoLetters.size ∧
      (twoLetters.Consists (twoLetters.decode (2 ^ 127 - 1)) ∧
        digitsNumber twoLetters.size (twoLetters.places (twoLetters.decode (2 ^ 127 - 1))) = 2 ^ 127 - 1) ∧
      ∀ n < 2 ^ 128, 2 ^ 127 ≤ n → twoLetters.decode n = "" := by
  have hsize : 2 ≤ twoLetters.size := by decide
  obtain ⟨hword, -, hempty⟩ := decode_word_iff twoLetters hsize
  exact ⟨hsize, (hword (2 ^ 127 - 1) (by decide)).2 (by decide), fun n hn hlarge => (hempty n hn).2 (.inr hlarge)⟩

/-- The first number whose last bit is set has a word of 127 letters, but is decoded to the empty one. -/
theorem decode_loses_last_bit :
    (2 ^ 127 < 2 ^ 128 ∧ digitsNumber twoLetters.size (List.replicate 126 1 ++ [2]) = 2 ^ 127) ∧
      twoLetters.decode (2 ^ 127) = "" ∧ twoLetters.decode (2 ^ 127) = twoLetters.decode 0 ∧
      digitsNumber twoLetters.size (twoLetters.places (twoLetters.decode (2 ^ 127))) ≠ 2 ^ 127 := by
  have hsize : 2 ≤ twoLetters.size := by decide
  have hempty : twoLetters.decode (2 ^ 127) = "" := by
    rw [decode_eq hsize (by decide), if_neg (by decide)]
  refine ⟨⟨by decide, by decide +kernel⟩, hempty, ?_, ?_⟩
  · rw [hempty, decode_eq hsize (by decide), if_pos (by decide), numberDigits_zero]
    rfl
  · rw [hempty]
    decide

end SequenceNotation.Alphabet
