/-!
# Plain digits

Words are moved in plain numeration, where digits run from zero up to the base, exclusive.  Plain digits stand least
significant first, so that carries and borrows go along the list.
-/

namespace SequenceNotation

/-- The first sum of digits that 64 bits do not hold. -/
def sumBound : Nat := Nat.pow 2 64

/-- Digits, least significant first, with a carry into the first one and the last carry as a digit of its own.  Digits
may be any numbers of 64 bits, and their sums with carries are cut to 64 bits. -/
def carryDigits (base : Nat) : Nat → List Nat → List Nat
  | carry, [] => if 0 < carry then [carry] else []
  | carry, digit :: rest =>
    (digit + carry) % sumBound % base :: carryDigits base ((digit + carry) % sumBound / base) rest

/-- The plain digits of a word, whose digits run from one to the base, most significant first. -/
def plainOfWord (base : Nat) (word : List Nat) : List Nat :=
  carryDigits base 0 word.reverse

/-- The plain digits of a number; none without two digits to choose from. -/
def plainDigits (base n : Nat) : List Nat :=
  if h : 0 < n ∧ 1 < base then
    have : n / base < n := Nat.div_lt_self h.1 h.2
    n % base :: plainDigits base (n / base)
  else []

/-- The sum of a carry and plain digits. -/
def addCarry (base : Nat) : Nat → List Nat → List Nat
  | carry, [] => plainDigits base carry
  | carry, digit :: rest => (digit + carry) % base :: addCarry base ((digit + carry) / base) rest

/-- The sum of a carry and two lists of plain digits. -/
def addDigits (base : Nat) : Nat → List Nat → List Nat → List Nat
  | carry, [], right => addCarry base carry right
  | carry, digit :: left, right =>
    if right = [] ∧ carry = 0 then digit :: left
    else
      let sum := digit + right.headD 0 + carry
      sum % base :: addDigits base (sum / base) left right.tail

/-- Plain digits less others and a borrow; none if there is not so much. -/
def subtractDigits? (base : Nat) : Nat → List Nat → List Nat → Option (List Nat)
  | borrow, [], right => if right = [] ∧ borrow = 0 then some [] else none
  | borrow, digit :: left, right =>
    if right = [] ∧ borrow = 0 then some (digit :: left)
    else
      let amount := right.headD 0 + borrow
      if amount ≤ digit then (subtractDigits? base 0 left right.tail).map ((digit - amount) :: ·)
      else (subtractDigits? base 1 left right.tail).map ((digit + base - amount) :: ·)

/-- Digits without the most significant zeros. -/
def withoutLeadingZeros (plain : List Nat) : List Nat :=
  (plain.reverse.dropWhile fun digit => digit = 0).reverse

/-- Plain digits less one. -/
def decrementDigits (base : Nat) : List Nat → List Nat
  | [] => []
  | 0 :: rest => (base - 1) :: decrementDigits base rest
  | (digit + 1) :: rest => digit :: rest

theorem length_withoutLeadingZeros_le (plain : List Nat) : (withoutLeadingZeros plain).length ≤ plain.length := by
  simpa [withoutLeadingZeros] using (List.dropWhile_suffix (l := plain.reverse) fun digit => digit = 0).length_le

theorem length_decrementDigits (base : Nat) (plain : List Nat) : (decrementDigits base plain).length = plain.length := by
  fun_induction decrementDigits base plain with
  | case1 => rfl
  | case2 rest ih => rw [List.length_cons, ih, List.length_cons]
  | case3 => rfl

/-- The digits of the word for plain digits, least significant first: each is what remains behind a step down, plus
one. -/
def reversedWordOfPlain (base : Nat) (plain : List Nat) : List Nat :=
  match h : decrementDigits base (withoutLeadingZeros plain) with
  | [] => []
  | digit :: rest =>
    have : rest.length < plain.length := by
      have hlength := length_decrementDigits base (withoutLeadingZeros plain)
      have hle := length_withoutLeadingZeros_le plain
      rw [h, List.length_cons] at hlength
      omega
    (digit + 1) :: reversedWordOfPlain base rest
termination_by plain.length

/-- The digits of the word for plain digits, most significant first. -/
def wordOfPlain (base : Nat) (plain : List Nat) : List Nat :=
  (reversedWordOfPlain base plain).reverse

end SequenceNotation
