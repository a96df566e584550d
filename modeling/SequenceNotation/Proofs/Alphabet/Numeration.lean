import Mathlib.Data.List.Induction
import Mathlib.Data.List.Shortlex
import Mathlib.Tactic.Tauto

/-!
# Bijective numeration

The digits of a word run from one to the base, so a number has exactly one word.  Numbers are ordered as their words
are by length and then digit by digit: the last digits decide where the digits in front of them agree.
-/

namespace SequenceNotation

/-- The number that the digits of a word stand for. -/
def digitsNumber (base : Nat) (digits : List Nat) : Nat :=
  digits.foldl (fun n digit => n * base + digit) 0

/-- The digits of a number from 1 to `base`, least significant first. -/
def reversedDigits (base n : Nat) : List Nat :=
  if h : n = 0 then []
  else
    have : (n - 1) / base < n := by
      have := Nat.div_le_self (n - 1) base
      omega
    ((n - 1) % base + 1) :: reversedDigits base ((n - 1) / base)

/-- The digits of a number from 1 to `base`, most significant first. -/
def numberDigits (base n : Nat) : List Nat :=
  (reversedDigits base n).reverse

/-- Digits as they occur in words. -/
def AreDigits (base : Nat) (digits : List Nat) : Prop :=
  ∀ digit ∈ digits, 1 ≤ digit ∧ digit ≤ base

theorem areDigits_nil (base : Nat) : AreDigits base [] := by
  simp [AreDigits]

theorem areDigits_concat {base digit : Nat} {digits : List Nat} :
    AreDigits base (digits ++ [digit]) ↔ AreDigits base digits ∧ 1 ≤ digit ∧ digit ≤ base := by
  simp only [AreDigits, List.forall_mem_append, List.forall_mem_singleton]

/-! ### The word of a number -/

theorem digitsNumber_append (base : Nat) (digits : List Nat) (digit : Nat) :
    digitsNumber base (digits ++ [digit]) = digitsNumber base digits * base + digit := by
  simp [digitsNumber]

theorem digitsNumber_numberDigits (base n : Nat) : digitsNumber base (numberDigits base n) = n := by
  unfold numberDigits
  induction n using Nat.strongRecOn with
  | _ n ih =>
    rw [reversedDigits]
    split
    · simp [digitsNumber, *]
    · next h =>
      have hlt : (n - 1) / base < n := by
        have := Nat.div_le_self (n - 1) base
        omega
      rw [List.reverse_cons, digitsNumber_append, ih _ hlt]
      have := Nat.div_add_mod' (n - 1) base
      omega

theorem numberDigits_zero (base : Nat) : numberDigits base 0 = [] := by
  simp [numberDigits, reversedDigits]

theorem numberDigits_of_pos {base n : Nat} (h : 0 < n) :
    numberDigits base n = numberDigits base ((n - 1) / base) ++ [(n - 1) % base + 1] := by
  rw [numberDigits, reversedDigits, dif_neg (by omega), List.reverse_cons, numberDigits]

theorem areDigits_numberDigits {base : Nat} (hbase : 0 < base) (n : Nat) : AreDigits base (numberDigits base n) := by
  induction n using Nat.strongRecOn with
  | ind n ih =>
    rcases Nat.eq_zero_or_pos n with rfl | hpos
    · rw [numberDigits_zero]
      exact areDigits_nil base
    · have hless : (n - 1) / base < n := by
        have := Nat.div_le_self (n - 1) base
        omega
      have hlast := Nat.mod_lt (n - 1) hbase
      rw [numberDigits_of_pos hpos]
      exact areDigits_concat.2 ⟨ih _ hless, by omega, by omega⟩

/-- A word is the only one of its number. -/
theorem numberDigits_digitsNumber {base : Nat} {digits : List Nat} (h : AreDigits base digits) :
    numberDigits base (digitsNumber base digits) = digits := by
  induction digits using List.reverseRecOn with
  | nil => exact numberDigits_zero base
  | append_singleton front digit ih =>
    obtain ⟨hfront, hone, hbase⟩ := areDigits_concat.1 h
    have hdiv : (digitsNumber base front * base + digit - 1) / base = digitsNumber base front := by
      rw [Nat.add_sub_assoc hone, Nat.mul_comm, Nat.mul_add_div (by omega), Nat.div_eq_of_lt (by omega), Nat.add_zero]
    have hmod : (digitsNumber base front * base + digit - 1) % base = digit - 1 := by
      rw [Nat.add_sub_assoc hone, Nat.mul_comm, Nat.mul_add_mod, Nat.mod_eq_of_lt (by omega)]
    rw [digitsNumber_append, numberDigits_of_pos (by omega), hdiv, hmod, ih hfront, Nat.sub_add_cancel hone]

theorem digitsNumber_inj {base : Nat} {digits digits' : List Nat} (h : AreDigits base digits)
    (h' : AreDigits base digits') : digitsNumber base digits = digitsNumber base digits' ↔ digits = digits' := by
  constructor
  · intro heq
    rw [← numberDigits_digitsNumber h, heq, numberDigits_digitsNumber h']
  · rintro rfl
    rfl

/-! ### Words in order -/

theorem lex_concat_iff {α : Type} {r : α → α → Prop} [Std.Irrefl r] {front front' : List α} {x y : α}
    (h : front.length = front'.length) :
    List.Lex r (front ++ [x]) (front' ++ [y]) ↔ List.Lex r front front' ∨ front = front' ∧ r x y := by
  induction front generalizing front' with
  | nil =>
    cases front' with
    | nil => simp
    | cons d front' => simp at h
  | cons c front ih =>
    cases front' with
    | nil => simp at h
    | cons d front' =>
      have hlength : front.length = front'.length := by simpa using h
      simp only [List.cons_append, List.cons_lex_cons_iff, ih hlength, List.cons.injEq]
      tauto

/-- Of two words of one length the digits in front of the last ones decide first. -/
theorem shortlex_concat_iff {α : Type} {r : α → α → Prop} [Std.Irrefl r] {front front' : List α} {x y : α} :
    List.Shortlex r (front ++ [x]) (front' ++ [y]) ↔ List.Shortlex r front front' ∨ front = front' ∧ r x y := by
  simp only [List.shortlex_def, List.length_append, List.length_singleton, Nat.add_lt_add_iff_right,
    Nat.add_right_cancel_iff]
  constructor
  · rintro (hshort | ⟨hlength, hlex⟩)
    · exact .inl (.inl hshort)
    · exact ((lex_concat_iff hlength).1 hlex).imp (fun hfront => .inr ⟨hlength, hfront⟩) id
  · rintro ((hshort | ⟨hlength, hfront⟩) | ⟨rfl, hlast⟩)
    · exact .inl hshort
    · exact .inr ⟨hlength, (lex_concat_iff hlength).2 (.inl hfront)⟩
    · exact .inr ⟨rfl, (lex_concat_iff rfl).2 (.inr ⟨rfl, hlast⟩)⟩

theorem mul_add_lt_mul_add_iff {base m n x y : Nat} (hx : 1 ≤ x ∧ x ≤ base) (hy : 1 ≤ y ∧ y ≤ base) :
    m * base + x < n * base + y ↔ m < n ∨ m = n ∧ x < y := by
  have hstep {m n : Nat} (h : m < n) : m * base + base ≤ n * base := by
    have := Nat.mul_le_mul_right base (Nat.succ_le_of_lt h)
    rwa [Nat.succ_mul] at this
  rcases Nat.lt_trichotomy m n with hlt | rfl | hgt
  · have := hstep hlt
    constructor <;> intro <;> omega
  · omega
  · have := hstep hgt
    constructor <;> intro <;> omega

/-- Words are ordered as their numbers are. -/
theorem digitsNumber_lt_iff {base : Nat} {digits digits' : List Nat} (h : AreDigits base digits)
    (h' : AreDigits base digits') :
    digitsNumber base digits < digitsNumber base digits' ↔ List.Shortlex (· < ·) digits digits' := by
  induction digits using List.reverseRecOn generalizing digits' with
  | nil =>
    cases digits' using List.reverseRecOn with
    | nil => simp
    | append_singleton front' digit' =>
      obtain ⟨-, hone, -⟩ := areDigits_concat.1 h'
      have hpos : digitsNumber base [] < digitsNumber base (front' ++ [digit']) := by
        rw [digitsNumber_append]
        show 0 < _
        omega
      simp [hpos, List.Shortlex.of_length_lt]
  | append_singleton front digit ih =>
    cases digits' using List.reverseRecOn with
    | nil => simp [digitsNumber]
    | append_singleton front' digit' =>
      obtain ⟨hfront, hdigit⟩ := areDigits_concat.1 h
      obtain ⟨hfront', hdigit'⟩ := areDigits_concat.1 h'
      rw [digitsNumber_append, digitsNumber_append, mul_add_lt_mul_add_iff hdigit hdigit', ih hfront hfront',
        digitsNumber_inj hfront hfront', shortlex_concat_iff]

end SequenceNotation
