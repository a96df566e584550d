import Mathlib.Data.Nat.Digits.Lemmas
import SequenceNotation.Alphabet.Basic
import SequenceNotation.Proofs.Alphabet.Numeration

/-!
# Arithmetic of words

A word is moved in four walks over plain digits: its digits are carried into plain ones, a number is added or
subtracted, and the digits of the new word are taken off one after the other, each after a step down.  Every walk keeps
its digits below the base and has a value that is known from the values it starts with, as long as no sum of digits is
cut.  So a word is moved by adding to its number.
-/

namespace SequenceNotation

/-- Digits below the base. -/
def ArePlain (base : Nat) (digits : List Nat) : Prop :=
  ∀ digit ∈ digits, digit < base

theorem arePlain_nil (base : Nat) : ArePlain base [] := by
  simp [ArePlain]

theorem arePlain_cons {base digit : Nat} {digits : List Nat} :
    ArePlain base (digit :: digits) ↔ digit < base ∧ ArePlain base digits :=
  List.forall_mem_cons

theorem ArePlain.headD_tail {base : Nat} (hbase : 0 < base) {digits : List Nat} (h : ArePlain base digits) :
    digits.headD 0 < base ∧ ArePlain base digits.tail := by
  cases digits with
  | nil => exact ⟨hbase, h⟩
  | cons digit rest => exact arePlain_cons.1 h

theorem getLast?_tail_ne {digits : List Nat} (h : digits.getLast? ≠ some 0) : digits.tail.getLast? ≠ some 0 := by
  cases digits with
  | nil => exact h
  | cons digit rest =>
    by_cases hrest : rest = []
    · subst hrest
      exact nofun
    · rwa [List.getLast?_cons_of_ne_nil hrest] at h

/-- Digits are put together from the first one and the rest, where missing digits are zero. -/
theorem ofDigits_headD_tail (base : Nat) (digits : List Nat) :
    Nat.ofDigits base digits = digits.headD 0 + base * Nat.ofDigits base digits.tail := by
  cases digits with
  | nil => simp
  | cons digit rest => exact Nat.ofDigits_cons

theorem ofDigits_pos {base : Nat} (hbase : 0 < base) {digits : List Nat} (hne : digits ≠ [])
    (hlast : digits.getLast? ≠ some 0) : 0 < Nat.ofDigits base digits := by
  induction digits with
  | nil => exact absurd rfl hne
  | cons digit rest ih =>
    rw [Nat.ofDigits_cons]
    by_cases hrest : rest = []
    · subst hrest
      have hdigit : digit ≠ 0 := fun heq => hlast (by rw [heq]; rfl)
      omega
    · have hpos := ih hrest (getLast?_tail_ne hlast)
      have := Nat.mul_pos hbase hpos
      omega

/-! ### From words to plain digits -/

/-- The sums of digits and the carries into them, which are cut when they are carried on. -/
def carrySums (base : Nat) : Nat → List Nat → List Nat
  | _, [] => []
  | carry, digit :: rest => (digit + carry) :: carrySums base ((digit + carry) % sumBound / base) rest

/-- No sum is cut. -/
def SumsHeld (sums : List Nat) : Prop :=
  ∀ sum ∈ sums, sum < sumBound

theorem sumsHeld_nil : SumsHeld [] := by
  simp [SumsHeld]

theorem sumsHeld_cons {sum : Nat} {sums : List Nat} : SumsHeld (sum :: sums) ↔ sum < sumBound ∧ SumsHeld sums :=
  List.forall_mem_cons

theorem ofDigits_carryDigits {base carry : Nat} {digits : List Nat} (h : SumsHeld (carrySums base carry digits)) :
    Nat.ofDigits base (carryDigits base carry digits) = Nat.ofDigits base digits + carry := by
  induction digits generalizing carry with
  | nil =>
    rw [carryDigits]
    split
    · simp
    · simp
      omega
  | cons digit rest ih =>
    obtain ⟨hsum, hrest⟩ := sumsHeld_cons.1 h
    have := Nat.mod_add_div (digit + carry) base
    rw [carryDigits, Nat.ofDigits_cons, Nat.ofDigits_cons, ih hrest, Nat.mod_eq_of_lt hsum, Nat.mul_add]
    omega

/-- Digits up to the base carry one at most, so that no sum is cut. -/
theorem carryDigits_spec {base carry : Nat} (hbase : 2 ≤ base) (hheld : base + 1 < sumBound) (hcarry : carry ≤ 1)
    {digits : List Nat} (h : ∀ digit ∈ digits, digit ≤ base) :
    ArePlain base (carryDigits base carry digits) ∧ SumsHeld (carrySums base carry digits) := by
  induction digits generalizing carry with
  | nil =>
    rw [carryDigits]
    split
    · exact ⟨arePlain_cons.2 ⟨by omega, arePlain_nil base⟩, sumsHeld_nil⟩
    · exact ⟨arePlain_nil base, sumsHeld_nil⟩
  | cons digit rest ih =>
    obtain ⟨hdigit, hrest⟩ := List.forall_mem_cons.1 h
    have hsum : digit + carry < sumBound := by omega
    have hnext : (digit + carry) % sumBound / base ≤ 1 := by
      rw [Nat.mod_eq_of_lt hsum]
      have : (digit + carry) / base < 2 := (Nat.div_lt_iff_lt_mul (by omega)).2 (by omega)
      omega
    obtain ⟨hplain, hsums⟩ := ih hnext hrest
    exact ⟨arePlain_cons.2 ⟨Nat.mod_lt _ (by omega), hplain⟩, sumsHeld_cons.2 ⟨hsum, hsums⟩⟩

theorem digitsNumber_eq_ofDigits (base : Nat) (word : List Nat) :
    digitsNumber base word = Nat.ofDigits base word.reverse := by
  induction word using List.reverseRecOn with
  | nil => rfl
  | append_singleton front digit ih =>
    rw [digitsNumber_append, ih, List.reverse_concat, Nat.ofDigits_cons, Nat.add_comm, Nat.mul_comm]

theorem ofDigits_plainOfWord {base : Nat} {word : List Nat} (h : SumsHeld (carrySums base 0 word.reverse)) :
    Nat.ofDigits base (plainOfWord base word) = digitsNumber base word := by
  rw [plainOfWord, ofDigits_carryDigits h, Nat.add_zero, digitsNumber_eq_ofDigits]

theorem plainOfWord_spec {base : Nat} (hbase : 2 ≤ base) (hheld : base + 1 < sumBound) {word : List Nat}
    (h : AreDigits base word) :
    ArePlain base (plainOfWord base word) ∧ SumsHeld (carrySums base 0 word.reverse) :=
  carryDigits_spec hbase hheld (Nat.zero_le 1) fun digit hdigit => (h digit (List.mem_reverse.1 hdigit)).2

theorem plainDigits_eq {base : Nat} (hbase : 2 ≤ base) (n : Nat) : plainDigits base n = Nat.digits base n := by
  induction n using Nat.strongRecOn with
  | ind n ih =>
    rw [plainDigits]
    rcases Nat.eq_zero_or_pos n with rfl | hpos
    · rw [dif_neg (by omega), Nat.digits_zero]
    · rw [dif_pos ⟨hpos, hbase⟩, ih _ (Nat.div_lt_self hpos hbase), Nat.digits_def' hbase hpos]

theorem arePlain_plainDigits {base : Nat} (hbase : 2 ≤ base) (n : Nat) : ArePlain base (plainDigits base n) := by
  rw [plainDigits_eq hbase]
  exact fun digit hdigit => Nat.digits_lt_base hbase hdigit

theorem ofDigits_plainDigits {base : Nat} (hbase : 2 ≤ base) (n : Nat) :
    Nat.ofDigits base (plainDigits base n) = n := by
  rw [plainDigits_eq hbase, Nat.ofDigits_digits]

theorem getLast?_plainDigits_ne {base : Nat} (hbase : 2 ≤ base) (n : Nat) :
    (plainDigits base n).getLast? ≠ some 0 := by
  rw [plainDigits_eq hbase]
  intro hlast
  rcases Nat.eq_zero_or_pos n with rfl | hpos
  · simp at hlast
  · have hne : Nat.digits base n ≠ [] := Nat.digits_ne_nil_iff_ne_zero.2 hpos.ne'
    rw [List.getLast?_eq_some_getLast hne] at hlast
    exact Nat.getLast_digit_ne_zero base hpos.ne' (Option.some.inj hlast)

/-! ### Sums and differences -/

theorem ofDigits_addCarry {base : Nat} (hbase : 2 ≤ base) (carry : Nat) (digits : List Nat) :
    Nat.ofDigits base (addCarry base carry digits) = Nat.ofDigits base digits + carry := by
  induction digits generalizing carry with
  | nil => rw [addCarry, ofDigits_plainDigits hbase, Nat.ofDigits_nil, Nat.zero_add]
  | cons digit rest ih =>
    have := Nat.mod_add_div (digit + carry) base
    rw [addCarry, Nat.ofDigits_cons, Nat.ofDigits_cons, ih, Nat.mul_add]
    omega

theorem arePlain_addCarry {base : Nat} (hbase : 2 ≤ base) (carry : Nat) (digits : List Nat) :
    ArePlain base (addCarry base carry digits) := by
  induction digits generalizing carry with
  | nil => exact arePlain_plainDigits hbase carry
  | cons digit rest ih => exact arePlain_cons.2 ⟨Nat.mod_lt _ (by omega), ih _⟩

theorem ofDigits_addDigits {base : Nat} (hbase : 2 ≤ base) (carry : Nat) (left right : List Nat) :
    Nat.ofDigits base (addDigits base carry left right) =
      Nat.ofDigits base left + Nat.ofDigits base right + carry := by
  induction left generalizing carry right with
  | nil => rw [addDigits, ofDigits_addCarry hbase, Nat.ofDigits_nil, Nat.zero_add]
  | cons digit left ih =>
    rw [addDigits]
    split
    · rename_i hdone
      rw [hdone.1, hdone.2]
      rfl
    · have := Nat.mod_add_div (digit + right.headD 0 + carry) base
      rw [Nat.ofDigits_cons, Nat.ofDigits_cons, ih, ofDigits_headD_tail base right, Nat.mul_add, Nat.mul_add]
      omega

theorem arePlain_addDigits {base : Nat} (hbase : 2 ≤ base) (carry : Nat) {left : List Nat} (h : ArePlain base left)
    (right : List Nat) : ArePlain base (addDigits base carry left right) := by
  induction left generalizing carry right with
  | nil => exact arePlain_addCarry hbase carry right
  | cons digit left ih =>
    rw [addDigits]
    split
    · exact h
    · exact arePlain_cons.2 ⟨Nat.mod_lt _ (by omega), ih _ (arePlain_cons.1 h).2 _⟩

/-- A difference is there if and only if it is not below zero. -/
theorem subtractDigits?_cases {base borrow : Nat} (hbase : 0 < base) (hborrow : borrow ≤ 1) {left right : List Nat}
    (h : ArePlain base left) (hright : ArePlain base right) (hlast : right.getLast? ≠ some 0) :
    (∃ difference, subtractDigits? base borrow left right = some difference ∧ ArePlain base difference ∧
        Nat.ofDigits base difference + (Nat.ofDigits base right + borrow) = Nat.ofDigits base left) ∨
      subtractDigits? base borrow left right = none ∧
        Nat.ofDigits base left < Nat.ofDigits base right + borrow := by
  induction left generalizing borrow right with
  | nil =>
    rw [subtractDigits?]
    split
    · rename_i hdone
      exact .inl ⟨[], rfl, arePlain_nil base, by rw [hdone.1, hdone.2]; rfl⟩
    · rename_i hmore
      refine .inr ⟨rfl, ?_⟩
      rw [Nat.ofDigits_nil]
      -- What is left to be taken off is not zero: it is the borrow, or a digit, as no zero ends the right side.
      by_cases hright : right = []
      · have : borrow ≠ 0 := fun hborrow => hmore ⟨hright, hborrow⟩
        omega
      · have := ofDigits_pos hbase hright hlast
        omega
  | cons digit left ih =>
    obtain ⟨hdigit, hleft⟩ := arePlain_cons.1 h
    obtain ⟨hhead, htail⟩ := hright.headD_tail hbase
    have htailLast := getLast?_tail_ne hlast
    rw [subtractDigits?, Nat.ofDigits_cons, ofDigits_headD_tail base right]
    split
    · rename_i hdone
      obtain ⟨rfl, rfl⟩ := hdone
      exact .inl ⟨_, rfl, h, by simp [Nat.ofDigits_cons]⟩
    · dsimp only
      split
      · -- nothing is borrowed from the digits behind
        rename_i hle
        rcases ih (Nat.zero_le 1) hleft htail htailLast with ⟨difference, hown, hplain, hvalue⟩ | ⟨hown, hless⟩
        · refine .inl ⟨_, by rw [hown]; rfl, arePlain_cons.2 ⟨by omega, hplain⟩, ?_⟩
          rw [Nat.ofDigits_cons, ← hvalue, Nat.mul_add, Nat.mul_add]
          omega
        · have := Nat.mul_le_mul_left base (Nat.succ_le_of_lt hless)
          rw [Nat.mul_succ, Nat.add_zero] at this
          exact .inr ⟨by rw [hown]; rfl, by omega⟩
      · -- one is borrowed, which counts as the base here
        rename_i hlt
        rcases ih (Nat.le_refl 1) hleft htail htailLast with ⟨difference, hown, hplain, hvalue⟩ | ⟨hown, hless⟩
        · refine .inl ⟨_, by rw [hown]; rfl, arePlain_cons.2 ⟨by omega, hplain⟩, ?_⟩
          rw [Nat.ofDigits_cons, ← hvalue, Nat.mul_add, Nat.mul_add, Nat.mul_one]
          omega
        · have := Nat.mul_le_mul_left base (Nat.le_of_lt_succ hless)
          exact .inr ⟨by rw [hown]; rfl, by omega⟩

/-! ### From plain digits to words -/

theorem withoutLeadingZeros_concat (front : List Nat) (digit : Nat) :
    withoutLeadingZeros (front ++ [digit]) = if digit = 0 then withoutLeadingZeros front else front ++ [digit] := by
  by_cases hdigit : digit = 0 <;> simp [withoutLeadingZeros, hdigit]

/-- Without its leading zeros a number has the same value, and its last digit is not zero. -/
theorem withoutLeadingZeros_spec {base : Nat} {plain : List Nat} (h : ArePlain base plain) :
    ArePlain base (withoutLeadingZeros plain) ∧
      Nat.ofDigits base (withoutLeadingZeros plain) = Nat.ofDigits base plain ∧
      (withoutLeadingZeros plain).getLast? ≠ some 0 := by
  induction plain using List.reverseRecOn with
  | nil => exact ⟨h, rfl, nofun⟩
  | append_singleton front digit ih =>
    rw [withoutLeadingZeros_concat]
    split
    · rename_i hdigit
      obtain ⟨hplain, hvalue, hlast⟩ := ih (List.forall_mem_append.1 h).1
      exact ⟨hplain, by rw [hvalue, hdigit, Nat.ofDigits_append_zero], hlast⟩
    · rename_i hdigit
      exact ⟨h, rfl, by simpa using hdigit⟩

theorem ofDigits_decrementDigits {base : Nat} {plain : List Nat} (hpos : 0 < Nat.ofDigits base plain) :
    Nat.ofDigits base (decrementDigits base plain) + 1 = Nat.ofDigits base plain := by
  fun_induction decrementDigits base plain with
  | case1 => cases hpos
  | case2 rest ih =>
    rw [Nat.ofDigits_cons, Nat.zero_add] at hpos
    have hbase : 0 < base := Nat.pos_of_mul_pos_right hpos
    rw [Nat.ofDigits_cons, Nat.ofDigits_cons, ← ih (Nat.pos_of_mul_pos_left hpos), Nat.mul_succ]
    omega
  | case3 digit rest =>
    rw [Nat.ofDigits_cons, Nat.ofDigits_cons]
    omega

theorem arePlain_decrementDigits {base : Nat} {plain : List Nat} (h : ArePlain base plain) :
    ArePlain base (decrementDigits base plain) := by
  fun_induction decrementDigits base plain with
  | case1 => exact h
  | case2 rest ih =>
    obtain ⟨hzero, hrest⟩ := arePlain_cons.1 h
    exact arePlain_cons.2 ⟨by omega, ih hrest⟩
  | case3 digit rest =>
    obtain ⟨hdigit, hrest⟩ := arePlain_cons.1 h
    exact arePlain_cons.2 ⟨by omega, hrest⟩

/-- Digits that are taken off behind a step down each are the digits of a word, with the value that was there. -/
theorem reversedWordOfPlain_spec {base : Nat} (hbase : 0 < base) {plain : List Nat} (h : ArePlain base plain) :
    AreDigits base (reversedWordOfPlain base plain) ∧
      Nat.ofDigits base (reversedWordOfPlain base plain) = Nat.ofDigits base plain := by
  fun_induction reversedWordOfPlain base plain with
  | case1 plain hdone =>
    obtain ⟨-, hvalue, -⟩ := withoutLeadingZeros_spec h
    have hlength := length_decrementDigits base (withoutLeadingZeros plain)
    rw [hdone] at hlength
    rw [List.length_eq_zero_iff.1 hlength.symm] at hvalue
    exact ⟨areDigits_nil base, hvalue⟩
  | case2 plain digit rest hmore hless ih =>
    obtain ⟨hplain, hvalue, hlast⟩ := withoutLeadingZeros_spec h
    -- Without its zeros the number is above zero, so one may be taken off: the digit taken is that one and the digit.
    have hne : withoutLeadingZeros plain ≠ [] := by
      rintro hnil
      rw [hnil] at hmore
      cases hmore
    have hdecremented := ofDigits_decrementDigits (ofDigits_pos hbase hne hlast)
    have hown := arePlain_decrementDigits hplain
    rw [hmore] at hdecremented hown
    obtain ⟨hdigit, hrest⟩ := arePlain_cons.1 hown
    obtain ⟨hdigits, hnumber⟩ := ih hrest
    refine ⟨List.forall_mem_cons.2 ⟨⟨by omega, by omega⟩, hdigits⟩, ?_⟩
    rw [← hvalue, ← hdecremented, Nat.ofDigits_cons, Nat.ofDigits_cons, hnumber]
    omega

/-- Plain digits make the word of their number. -/
theorem wordOfPlain_eq {base : Nat} (hbase : 0 < base) {plain : List Nat} (h : ArePlain base plain) :
    wordOfPlain base plain = numberDigits base (Nat.ofDigits base plain) := by
  obtain ⟨hdigits, hvalue⟩ := reversedWordOfPlain_spec hbase h
  have hword : AreDigits base (wordOfPlain base plain) :=
    fun digit hdigit => hdigits digit (List.mem_reverse.1 hdigit)
  rw [← hvalue, ← numberDigits_digitsNumber hword, digitsNumber_eq_ofDigits, wordOfPlain, List.reverse_reverse]

/-! ### Moving words -/

/-- An alphabet has no more letters than there are characters. -/
theorem Alphabet.size_le (alphabet : Alphabet) : alphabet.size ≤ 0x110000 := by
  have hcodes : (alphabet.letters.map Char.toNat).Nodup :=
    alphabet.nodup.map fun _ _ heq => Char.toNat_inj.1 heq
  have hsubset : alphabet.letters.map Char.toNat ⊆ List.range 0x110000 := by
    intro code hcode
    obtain ⟨c, -, rfl⟩ := List.mem_map.1 hcode
    have hvalid : c.toNat < 0xD800 ∨ 0xDFFF < c.toNat ∧ c.toNat < 0x110000 := c.valid
    exact List.mem_range.2 (by omega)
  have hlength := (hcodes.subperm hsubset).length_le
  rwa [List.length_map, List.length_range] at hlength

/-- With two letters at least, a word is moved by adding to its number. -/
theorem Alphabet.shift?_eq {alphabet : Alphabet} (h : 2 ≤ alphabet.size) {digits : List Nat}
    (hdigits : AreDigits alphabet.size digits) (delta : Int) :
    alphabet.shift? digits delta =
      if 0 ≤ digitsNumber alphabet.size digits + delta then
        some (numberDigits alphabet.size (digitsNumber alphabet.size digits + delta).toNat)
      else none := by
  have hheld : alphabet.size + 1 < sumBound := Nat.lt_of_le_of_lt (Nat.succ_le_succ alphabet.size_le) (by decide)
  obtain ⟨hplain, hsums⟩ := plainOfWord_spec h hheld hdigits
  have hvalue := ofDigits_plainOfWord hsums
  have hamount := ofDigits_plainDigits h delta.natAbs
  have hamountPlain : ArePlain alphabet.size (plainDigits alphabet.size delta.natAbs) := arePlain_plainDigits h _
  have hlast : (plainDigits alphabet.size delta.natAbs).getLast? ≠ some 0 := getLast?_plainDigits_ne h _
  rw [Alphabet.shift?, if_neg (by omega)]
  by_cases hdelta : delta < 0
  · simp only [if_pos hdelta]
    rcases subtractDigits?_cases (by omega) (Nat.zero_le 1) hplain hamountPlain hlast with
      ⟨difference, hown, hrest, hdifference⟩ | ⟨hown, hless⟩
    · rw [hown, Option.map_some, wordOfPlain_eq (by omega) hrest, if_pos (by omega)]
      congr 2
      omega
    · rw [hown, Option.map_none, if_neg (by omega)]
  · have hsum := ofDigits_addDigits h 0 (plainOfWord alphabet.size digits) (plainDigits alphabet.size delta.natAbs)
    simp only [if_neg hdelta, Option.map_some]
    rw [wordOfPlain_eq (by omega) (arePlain_addDigits h 0 hplain _), if_pos (by omega)]
    congr 2
    omega

end SequenceNotation
