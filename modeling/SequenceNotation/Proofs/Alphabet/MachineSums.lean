import SequenceNotation.Proofs.Alphabet.Decoding

/-!
# Sums within machine integers

A word is moved by sums of 64 bits, or over one letter by a single sum of 128 bits with a sign.  Only two kinds of sums
can leave their range.  One is the sum of a length and a distance close to the greatest one: it is cut to a negative
number, so that there is no word, as there should be none of this length.  The others are the sums of digits with
carries, but only where digits are no places of letters, and then the word is another one.
-/

namespace SequenceNotation

/-! ### The sums of a move -/

/-- The sums of adding plain digits.  Behind both numbers there is nothing but the carry. -/
def addSums (base : Nat) : Nat → List Nat → List Nat → List Nat
  | carry, [], right => carrySums base carry right
  | carry, digit :: left, right =>
    if right = [] ∧ carry = 0 then []
    else
      let sum := digit + right.headD 0 + carry
      sum :: addSums base (sum / base) left right.tail

/-- The sums of subtracting plain digits: what is taken from a digit, and the digit with what it borrows. -/
def subtractSums (base : Nat) : Nat → List Nat → List Nat → List Nat
  | _, [], _ => []
  | borrow, digit :: left, right =>
    if right = [] ∧ borrow = 0 then []
    else
      let amount := right.headD 0 + borrow
      if amount ≤ digit then amount :: subtractSums base 0 left right.tail
      else amount :: (digit + base) :: subtractSums base 1 left right.tail

namespace Alphabet

/-- The sums of moving a word: those of the walks over its digits, and the digits of the new word, each of which is a
plain digit plus one. -/
def moveSums (alphabet : Alphabet) (digits : List Nat) (delta : Int) : List Nat :=
  let plain := plainOfWord alphabet.size digits
  let amount := plainDigits alphabet.size delta.natAbs
  carrySums alphabet.size 0 digits.reverse ++
    ((if delta < 0 then subtractSums alphabet.size 0 plain amount else addSums alphabet.size 0 plain amount) ++
      (alphabet.shift? digits delta).getD [])

/-- No sum of moving a word leaves its integer type. -/
def MovesInRange (alphabet : Alphabet) (digits : List Nat) (delta : Int) : Prop :=
  if alphabet.size = 1 then -2 ^ 127 ≤ digits.length + delta ∧ digits.length + delta < 2 ^ 127
  else SumsHeld (alphabet.moveSums digits delta)

end Alphabet

/-! ### Carried digits -/

theorem sumsHeld_append {sums sums' : List Nat} : SumsHeld (sums ++ sums') ↔ SumsHeld sums ∧ SumsHeld sums' :=
  List.forall_mem_append

/-- Half of the bound of sums. -/
def halfBound : Nat := Nat.pow 2 63

theorem sumBound_eq : sumBound = 2 * halfBound := by
  decide

/-- The bases of alphabets: two letters at least, and no more than there are characters. -/
structure IsBase (base : Nat) : Prop where
  two_le : 2 ≤ base
  le_characters : base ≤ 0x110000

theorem IsBase.lt_halfBound {base : Nat} (h : IsBase base) : 4 * base < halfBound :=
  Nat.lt_of_le_of_lt (Nat.mul_le_mul_left 4 h.le_characters) (by decide)

theorem IsBase.div_le {base sum : Nat} (h : IsBase base) (hsum : sum < sumBound) : sum / base ≤ halfBound := by
  have hhalf : sum / base ≤ sum / 2 := Nat.div_le_div_left h.two_le (by decide)
  have := sumBound_eq
  omega

/-- Digits behind carrying: all below the base, apart from the last one, which is the last carry. -/
structure AreCarried (base : Nat) (digits : List Nat) : Prop where
  held : ∀ digit ∈ digits, digit ≤ halfBound
  plain : ∀ digit ∈ digits.dropLast, digit < base

theorem areCarried_nil (base : Nat) : AreCarried base [] :=
  ⟨by simp, by simp⟩

theorem areCarried_cons {base digit : Nat} {digits : List Nat} :
    AreCarried base (digit :: digits) ↔
      digit ≤ halfBound ∧ (digits ≠ [] → digit < base) ∧ AreCarried base digits := by
  cases digits with
  | nil =>
    exact ⟨fun h => ⟨h.held digit (.head _), nofun, areCarried_nil base⟩,
      fun h => ⟨List.forall_mem_singleton.2 h.1, nofun⟩⟩
  | cons next rest =>
    constructor
    · rintro ⟨hheld, hplain⟩
      rw [List.dropLast_cons_cons, List.forall_mem_cons] at hplain
      obtain ⟨hdigit, hrest⟩ := List.forall_mem_cons.1 hheld
      exact ⟨hdigit, fun _ => hplain.1, hrest, hplain.2⟩
    · rintro ⟨hdigit, hbase, hrest⟩
      refine ⟨List.forall_mem_cons.2 ⟨hdigit, hrest.held⟩, ?_⟩
      rw [List.dropLast_cons_cons, List.forall_mem_cons]
      exact ⟨hbase (List.cons_ne_nil _ _), hrest.plain⟩

section Walks

variable {base : Nat} (hbase : IsBase base)

include hbase

theorem areCarried_carryDigits {carry : Nat} (hcarry : carry ≤ halfBound) (digits : List Nat) :
    AreCarried base (carryDigits base carry digits) := by
  have hsmall := hbase.lt_halfBound
  induction digits generalizing carry with
  | nil =>
    rw [carryDigits]
    split
    · exact areCarried_cons.2 ⟨hcarry, fun hne => absurd rfl hne, areCarried_nil base⟩
    · exact areCarried_nil base
  | cons digit rest ih =>
    have hdigit := Nat.mod_lt ((digit + carry) % sumBound) (Nat.lt_of_lt_of_le Nat.two_pos hbase.two_le)
    have hsum : (digit + carry) % sumBound < sumBound := Nat.mod_lt _ (by decide)
    exact areCarried_cons.2 ⟨by omega, fun _ => hdigit, ih (hbase.div_le hsum)⟩

/-! ### The walks behind carrying -/

theorem sumsHeld_carrySums {carry : Nat} (hcarry : carry ≤ halfBound) {digits : List Nat} (h : ArePlain base digits) :
    SumsHeld (carrySums base carry digits) := by
  have hsmall := hbase.lt_halfBound
  have hbound := sumBound_eq
  induction digits generalizing carry with
  | nil => exact sumsHeld_nil
  | cons digit rest ih =>
    obtain ⟨hdigit, hrest⟩ := arePlain_cons.1 h
    have hsum : digit + carry < sumBound := by omega
    refine sumsHeld_cons.2 ⟨hsum, ih ?_ hrest⟩
    rw [Nat.mod_eq_of_lt hsum]
    exact hbase.div_le hsum

/-- The last carry is met by the last digit of the sum only, in front of it carries are one at most. -/
theorem sumsHeld_addSums {carry : Nat} (hcarry : carry ≤ 1) {left right : List Nat} (hleft : AreCarried base left)
    (hright : ArePlain base right) : SumsHeld (addSums base carry left right) := by
  have htwo := hbase.two_le
  have hsmall := hbase.lt_halfBound
  have hbound := sumBound_eq
  induction left generalizing carry right with
  | nil => exact sumsHeld_carrySums hbase (by omega) hright
  | cons digit left ih =>
    obtain ⟨hdigit, hplain, hrest⟩ := areCarried_cons.1 hleft
    obtain ⟨hhead, htail⟩ := hright.headD_tail (by omega)
    rw [addSums]
    split
    · exact sumsHeld_nil
    · have hsum : digit + right.headD 0 + carry < sumBound := by omega
      refine sumsHeld_cons.2 ⟨hsum, ?_⟩
      by_cases hlast : left = []
      · subst hlast
        exact sumsHeld_carrySums hbase (hbase.div_le hsum) htail
      · have hdigit := hplain hlast
        have hnext : (digit + right.headD 0 + carry) / base < 2 := (Nat.div_lt_iff_lt_mul (by omega)).2 (by omega)
        exact ih (by omega) hrest htail

theorem sumsHeld_subtractSums {borrow : Nat} (hborrow : borrow ≤ 1) (left : List Nat) {right : List Nat}
    (hright : ArePlain base right) : SumsHeld (subtractSums base borrow left right) := by
  have htwo := hbase.two_le
  have hsmall := hbase.lt_halfBound
  have hbound := sumBound_eq
  induction left generalizing borrow right with
  | nil => exact sumsHeld_nil
  | cons digit left ih =>
    obtain ⟨hhead, htail⟩ := hright.headD_tail (by omega)
    rw [subtractSums]
    split
    · exact sumsHeld_nil
    · dsimp only
      split
      · exact sumsHeld_cons.2 ⟨by omega, ih (Nat.zero_le 1) htail⟩
      · exact sumsHeld_cons.2 ⟨by omega, sumsHeld_cons.2 ⟨by omega, ih (Nat.le_refl 1) htail⟩⟩

theorem le_of_mem_addDigits (carry : Nat) {left : List Nat} (hleft : AreCarried base left) (right : List Nat) :
    ∀ digit ∈ addDigits base carry left right, digit ≤ halfBound := by
  have htwo := hbase.two_le
  have hsmall := hbase.lt_halfBound
  induction left generalizing carry right with
  | nil =>
    intro digit hdigit
    have := arePlain_addCarry htwo carry right digit hdigit
    omega
  | cons digit left ih =>
    rw [addDigits]
    split
    · exact hleft.held
    · have hmod := Nat.mod_lt (digit + right.headD 0 + carry) (Nat.lt_of_lt_of_le Nat.two_pos htwo)
      exact List.forall_mem_cons.2 ⟨by omega, ih _ (areCarried_cons.1 hleft).2.2 _⟩

theorem le_of_mem_subtractDigits? {borrow : Nat} {left right difference : List Nat} (hleft : AreCarried base left)
    (h : subtractDigits? base borrow left right = some difference) : ∀ digit ∈ difference, digit ≤ halfBound := by
  have hsmall := hbase.lt_halfBound
  induction left generalizing borrow right difference with
  | nil =>
    rw [subtractDigits?] at h
    split at h
    · obtain rfl := Option.some.inj h
      simp
    · cases h
  | cons digit left ih =>
    obtain ⟨hdigit, -, hrest⟩ := areCarried_cons.1 hleft
    rw [subtractDigits?] at h
    split at h
    · obtain rfl := Option.some.inj h
      exact hleft.held
    · dsimp only at h
      split at h
      · obtain ⟨rest, hown, rfl⟩ := Option.map_eq_some_iff.1 h
        exact List.forall_mem_cons.2 ⟨by omega, ih hrest hown⟩
      · obtain ⟨rest, hown, rfl⟩ := Option.map_eq_some_iff.1 h
        exact List.forall_mem_cons.2 ⟨by omega, ih hrest hown⟩

theorem le_of_mem_decrementDigits {plain : List Nat} (h : ∀ digit ∈ plain, digit ≤ halfBound) :
    ∀ digit ∈ decrementDigits base plain, digit ≤ halfBound := by
  have hsmall := hbase.lt_halfBound
  fun_induction decrementDigits base plain with
  | case1 => exact h
  | case2 rest ih => exact List.forall_mem_cons.2 ⟨by omega, ih (List.forall_mem_cons.1 h).2⟩
  | case3 digit rest =>
    obtain ⟨hdigit, hrest⟩ := List.forall_mem_cons.1 h
    exact List.forall_mem_cons.2 ⟨by omega, hrest⟩

theorem sumsHeld_reversedWordOfPlain {plain : List Nat} (h : ∀ digit ∈ plain, digit ≤ halfBound) :
    SumsHeld (reversedWordOfPlain base plain) := by
  have htwo := hbase.two_le
  have hbound := sumBound_eq
  have hsmall := hbase.lt_halfBound
  fun_induction reversedWordOfPlain base plain with
  | case1 => exact sumsHeld_nil
  | case2 plain digit rest hmore hless ih =>
    have hleading : ∀ digit ∈ withoutLeadingZeros plain, digit ≤ halfBound := by
      intro digit hdigit
      have hmem := (List.dropWhile_sublist _).subset (List.mem_reverse.1 hdigit)
      exact h digit (List.mem_reverse.1 hmem)
    have hown := le_of_mem_decrementDigits hbase hleading
    rw [hmore] at hown
    obtain ⟨hdigit, hrest⟩ := List.forall_mem_cons.1 hown
    exact sumsHeld_cons.2 ⟨by omega, ih hrest⟩

end Walks

/-! ### The sums of carrying -/

/-- A bound of digits with a carry is passed on to the digits behind the first one. -/
theorem ofDigits_cons_add_lt_iff {base : Nat} (hbase : 0 < base) (digit carry bound : Nat) {more : List Nat}
    (hne : more ≠ []) :
    Nat.ofDigits base (digit :: more) + carry < bound * base ^ more.length ↔
      Nat.ofDigits base more + (digit + carry) / base < bound * base ^ (more.length - 1) := by
  have hpow : bound * base ^ more.length = bound * base ^ (more.length - 1) * base := by
    rw [Nat.mul_assoc, ← Nat.pow_succ, Nat.succ_eq_add_one, Nat.sub_add_cancel (List.length_pos_iff.2 hne)]
  have hvalue : Nat.ofDigits base (digit :: more) + carry = digit + carry + base * Nat.ofDigits base more := by
    rw [Nat.ofDigits_cons]
    omega
  rw [hpow, hvalue, ← Nat.div_lt_iff_lt_mul hbase, Nat.add_mul_div_left _ _ hbase, Nat.add_comm]

/-- The sum at a digit is what the digits up to there and the first carry stand for, divided by the place of the digit.
So it is held exactly if they stay below the bound at this place. -/
theorem sumsHeld_carrySums_iff {base carry : Nat} (hbase : 0 < base) {digits : List Nat} :
    SumsHeld (carrySums base carry digits) ↔
      ∀ front, front <+: digits → front ≠ [] →
        Nat.ofDigits base front + carry < sumBound * base ^ (front.length - 1) := by
  induction digits generalizing carry with
  | nil =>
    refine iff_of_true sumsHeld_nil fun front hfront hne => ?_
    exact absurd (List.prefix_nil.1 hfront) hne
  | cons digit rest ih =>
    rw [carrySums, sumsHeld_cons]
    constructor
    · rintro ⟨hsum, hrest⟩ front hfront hne
      rw [Nat.mod_eq_of_lt hsum, ih] at hrest
      obtain ⟨first, more, rfl⟩ := List.exists_cons_of_ne_nil hne
      obtain ⟨rfl, hmore⟩ := List.cons_prefix_cons.1 hfront
      -- The front that is only this digit is its own sum; any other one is a front of the rest, behind this carry.
      rcases eq_or_ne more [] with rfl | hmoreNe
      · simpa using hsum
      · exact (ofDigits_cons_add_lt_iff hbase first carry sumBound hmoreNe).2 (hrest more hmore hmoreNe)
    · intro hall
      have hsum : digit + carry < sumBound := by
        simpa using hall [digit] ⟨rest, rfl⟩ (List.cons_ne_nil _ _)
      rw [Nat.mod_eq_of_lt hsum, ih]
      refine ⟨hsum, fun more hmore hmoreNe => ?_⟩
      exact (ofDigits_cons_add_lt_iff hbase digit carry sumBound hmoreNe).1
        (hall (digit :: more) (List.cons_prefix_cons.2 ⟨rfl, hmore⟩) (List.cons_ne_nil _ _))

/-- The sums of a word are held exactly if no end of it stands for a number that its first digit cannot hold. -/
theorem sumsHeld_word_iff {base : Nat} (hbase : 0 < base) {digits : List Nat} :
    SumsHeld (carrySums base 0 digits.reverse) ↔
      ∀ back, back <:+ digits → digitsNumber base back < sumBound * base ^ (back.length - 1) := by
  rw [sumsHeld_carrySums_iff hbase]
  constructor
  · intro hall back hback
    rw [digitsNumber_eq_ofDigits]
    rcases eq_or_ne back [] with rfl | hne
    · exact Nat.mul_pos (by decide) (Nat.pow_pos hbase)
    · have hown := hall back.reverse (List.reverse_prefix.2 hback) (List.reverse_ne_nil_iff.2 hne)
      rwa [List.length_reverse, Nat.add_zero] at hown
  · intro hall front hfront hne
    have hback : front.reverse <:+ digits := by rwa [← List.reverse_prefix, List.reverse_reverse]
    have hown := hall front.reverse hback
    rwa [digitsNumber_eq_ofDigits, List.reverse_reverse, List.length_reverse] at hown

/-! ### Moves -/

namespace Alphabet

variable {alphabet : Alphabet}

theorem isBase_size (h : alphabet.size ≠ 1) : IsBase alphabet.size := by
  have hpos : 0 < alphabet.size := List.length_pos_iff.2 alphabet.nonempty
  exact ⟨by omega, alphabet.size_le⟩

/-- With two letters at least, only the sums of carrying can be cut. -/
theorem sumsHeld_moveSums_iff (h : alphabet.size ≠ 1) (digits : List Nat) (delta : Int) :
    SumsHeld (alphabet.moveSums digits delta) ↔ SumsHeld (carrySums alphabet.size 0 digits.reverse) := by
  have hbase := isBase_size h
  have hleft : AreCarried alphabet.size (plainOfWord alphabet.size digits) :=
    areCarried_carryDigits hbase (Nat.zero_le _) _
  have hright : ArePlain alphabet.size (plainDigits alphabet.size delta.natAbs) := arePlain_plainDigits hbase.two_le _
  have hword {plain : List Nat} (hplain : ∀ digit ∈ plain, digit ≤ halfBound) :
      SumsHeld (wordOfPlain alphabet.size plain) :=
    fun sum hsum => sumsHeld_reversedWordOfPlain hbase hplain sum (List.mem_reverse.1 hsum)
  unfold moveSums
  dsimp only
  rw [sumsHeld_append, sumsHeld_append, shift?, if_neg h]
  -- The sums of the addition or subtraction and those of writing the word are held in any case.
  refine and_iff_left ?_
  by_cases hdelta : delta < 0
  · simp only [if_pos hdelta]
    refine ⟨sumsHeld_subtractSums hbase (Nat.zero_le 1) _ hright, ?_⟩
    cases hmoved : subtractDigits? alphabet.size 0 (plainOfWord alphabet.size digits)
        (plainDigits alphabet.size delta.natAbs) with
    | none => exact sumsHeld_nil
    | some difference => exact hword (le_of_mem_subtractDigits? hbase hleft hmoved)
  · simp only [if_neg hdelta]
    exact ⟨sumsHeld_addSums hbase (Nat.zero_le 1) hleft hright, hword (le_of_mem_addDigits hbase 0 hleft _)⟩

/-- The length of a word with the greatest distances is cut to a negative number, so that there is no word. -/
theorem shift?_unary (h : alphabet.size = 1) {digits : List Nat} (hlength : digits.length < 2 ^ 64) {delta : Int}
    (hdelta : -2 ^ 127 ≤ delta ∧ delta < 2 ^ 127) :
    alphabet.shift? digits delta =
      if 0 ≤ digits.length + delta ∧ digits.length + delta ≤ maxUnaryLength then
        some (List.replicate (digits.length + delta).toNat 1)
      else none := by
  have hpow : Nat.pow 2 128 = 2 ^ 128 := rfl
  have hmax : maxUnaryLength = 65536 := by decide
  rw [shift?, if_pos h, hpow]
  by_cases hheld : digits.length + delta < 2 ^ 127
  · have hsum : ((digits.length : Int) + delta).bmod (2 ^ 128) = digits.length + delta :=
      Int.bmod_eq_of_le (by omega) (by omega)
    rw [hsum]
  · have hsum : ((digits.length : Int) + delta).bmod (2 ^ 128) = digits.length + delta - 2 ^ 128 := by
      rw [Int.bmod_def, Int.emod_eq_of_lt (by omega) (by omega)]
      exact if_neg (by omega)
    rw [hsum]
    dsimp only
    rw [if_neg (by omega), if_neg (by omega)]

/-- No sum of moving a word leaves its range, apart from two cases.  Over one letter it is the sum of a length and a
distance that is no number of 128 bits with a sign; the word is nevertheless the one of the sum, if it has one.  Over
more letters there is a sum outside of 64 bits exactly if an end of the digits stands for a number that is too great for
its first digit, which no end of a word does. -/
theorem movesInRange_iff (alphabet : Alphabet) {digits : List Nat} (hlength : digits.length < 2 ^ 64) {delta : Int}
    (hdelta : -2 ^ 127 ≤ delta ∧ delta < 2 ^ 127) :
    (alphabet.size = 1 →
      (alphabet.MovesInRange digits delta ↔ digits.length + delta < 2 ^ 127) ∧
        alphabet.shift? digits delta =
          if 0 ≤ digits.length + delta ∧ digits.length + delta ≤ maxUnaryLength then
            some (List.replicate (digits.length + delta).toNat 1)
          else none) ∧
      (alphabet.size ≠ 1 →
        (alphabet.MovesInRange digits delta ↔
          ∀ back, back <:+ digits → digitsNumber alphabet.size back < 2 ^ 64 * alphabet.size ^ (back.length - 1)) ∧
        (AreDigits alphabet.size digits → alphabet.MovesInRange digits delta)) := by
  refine ⟨fun hone => ⟨?_, shift?_unary hone hlength hdelta⟩, fun hmore => ?_⟩
  · rw [MovesInRange, if_pos hone]
    omega
  · have hbase := isBase_size hmore
    have hheld : alphabet.size + 1 < sumBound := Nat.lt_of_le_of_lt (Nat.succ_le_succ alphabet.size_le) (by decide)
    have hsums : alphabet.MovesInRange digits delta ↔ SumsHeld (carrySums alphabet.size 0 digits.reverse) := by
      rw [MovesInRange, if_neg hmore, sumsHeld_moveSums_iff hmore]
    rw [hsums]
    exact ⟨sumsHeld_word_iff (Nat.lt_of_lt_of_le Nat.two_pos hbase.two_le),
      fun hdigits => (plainOfWord_spec hbase.two_le hheld hdigits).2⟩

/-- The alphabet of one letter. -/
def oneLetter : Alphabet :=
  ⟨['x'], by decide, by decide⟩

/-- A move with a borrow, and a move over one letter. -/
theorem movesInRange_borrow :
    (3 < 2 ^ 64 ∧ AreDigits twoLetters.size [1, 1, 1] ∧ twoLetters.MovesInRange [1, 1, 1] (-3)) ∧
      oneLetter.MovesInRange [1, 1, 1] (-3) ∧ oneLetter.shift? [1, 1, 1] (-3) = some [] := by
  have hdigits : AreDigits twoLetters.size [1, 1, 1] := by simp [AreDigits]; decide
  have htwo := (@movesInRange_iff twoLetters [1, 1, 1] (by decide) (-3) (by decide)).2 (by decide)
  have hone := (@movesInRange_iff oneLetter [1, 1, 1] (by decide) (-3) (by decide)).1 rfl
  exact ⟨⟨by decide, hdigits, htwo.2 hdigits⟩, hone.1.2 (by decide), hone.2⟩

/-- Digits behind which carrying cuts a sum: the last two are the greatest numbers of 64 bits. -/
def greatDigits : List Nat :=
  List.replicate 64 1 ++ [2 ^ 64 - 1, 2 ^ 64 - 1]

/-- The greatest distance leaves the range over one letter.  Digits that are no places of letters leave it without any
distance, and are moved to another number. -/
theorem greatest_distance_leaves_range :
    ¬ oneLetter.MovesInRange [1] (2 ^ 127 - 1) ∧ ¬ twoLetters.MovesInRange greatDigits 0 ∧
      ∃ moved, twoLetters.shift? greatDigits 0 = some moved ∧
        digitsNumber twoLetters.size moved ≠ digitsNumber twoLetters.size greatDigits := by
  have hone : oneLetter.size = 1 := rfl
  have hmore : twoLetters.size ≠ 1 := by decide
  have hplain : ArePlain twoLetters.size (plainOfWord twoLetters.size greatDigits) := by
    unfold ArePlain
    decide +kernel
  have hzero : plainDigits twoLetters.size (0 : Int).natAbs = [] := by
    rw [plainDigits, dif_neg (by decide)]
  refine ⟨?_, ?_, _, by rw [shift?, if_neg hmore]; rfl, ?_⟩
  · rw [MovesInRange, if_pos hone]
    decide
  · rw [MovesInRange, if_neg hmore, sumsHeld_moveSums_iff hmore]
    unfold SumsHeld
    decide +kernel
  · rw [wordOfPlain_eq (by decide) (arePlain_addDigits (by decide) 0 hplain _), digitsNumber_numberDigits,
      ofDigits_addDigits (by decide), hzero]
    decide +kernel

end Alphabet

end SequenceNotation
