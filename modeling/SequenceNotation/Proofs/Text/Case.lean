import SequenceNotation.Text.Case

/-!
# Characters in their own case

The tables of case agree with each other: a character of one case becomes itself in this case, and none has both.  A
table is taken as the set of its code points, kept in the bits of a number, so that two tables are compared at once.
-/

namespace SequenceNotation.Text

/-- The code points of a run `(first, last, stride)`. -/
def runCodes : Nat × Nat × Nat → List Nat
  | (first, last, stride) => List.range' first ((last - first) / stride + 1) stride

/-- The code points of some runs, each with its bit. -/
def codeSet (runs : List (Nat × Nat × Nat)) : Nat :=
  (runs.flatMap runCodes).foldr (fun code set => Nat.pow 2 code ||| set) 0

theorem testBit_of_mem {codes : List Nat} {code : Nat} (h : code ∈ codes) :
    (codes.foldr (fun code set => Nat.pow 2 code ||| set) 0).testBit code = true := by
  induction codes with
  | nil => cases h
  | cons first rest ih =>
    rw [List.foldr_cons, Nat.testBit_or, Bool.or_eq_true]
    rcases List.mem_cons.1 h with rfl | hrest
    · exact .inl Nat.testBit_two_pow_self
    · exact .inr (ih hrest)

theorem testBit_codeSet {runs : List (Nat × Nat × Nat)} {code : Nat} (h : inStridedRanges runs code) :
    (codeSet runs).testBit code = true := by
  obtain ⟨⟨first, last, stride⟩, hrun, hin⟩ := List.any_eq_true.1 h
  simp only [Bool.and_eq_true, decide_eq_true_eq, beq_iff_eq] at hin
  obtain ⟨⟨hfirst, hlast⟩, hstride⟩ := hin
  have hmem : code ∈ runCodes (first, last, stride) := by
    have hcount : (code - first) / stride ≤ (last - first) / stride := Nat.div_le_div_right (by omega)
    have hcode := Nat.mul_div_cancel' (Nat.dvd_of_mod_eq_zero hstride)
    exact List.mem_range'.2 ⟨(code - first) / stride, by omega, by omega⟩
  exact testBit_of_mem (List.mem_flatMap.2 ⟨_, hrun, hmem⟩)

/-- No code point lies in two tables without a common bit. -/
theorem inStridedRanges_of_disjoint {runs runs' : List (Nat × Nat × Nat)}
    (hdisjoint : codeSet runs &&& codeSet runs' = 0) {code : Nat} (h : inStridedRanges runs code) :
    inStridedRanges runs' code = false := by
  refine Bool.eq_false_iff.2 fun h' => ?_
  have hcommon : (codeSet runs &&& codeSet runs').testBit code = true := by
    rw [Nat.testBit_and, testBit_codeSet h, testBit_codeSet h', Bool.and_self]
  rw [hdisjoint, Nat.zero_testBit] at hcommon
  cases hcommon

/-- The runs whose characters a table of images and one of expansions change. -/
def changedRuns (images : List (Nat × Nat × Nat × Nat)) (expansions : List (Nat × List Nat)) :
    List (Nat × Nat × Nat) :=
  images.map (fun (first, last, stride, _) => (first, last, stride)) ++
    expansions.map fun (code, _) => (code, code, 1)

/-- A character in none of the tables stays as it is. -/
theorem mapCase_of_unchanged {images : List (Nat × Nat × Nat × Nat)} {expansions : List (Nat × List Nat)} {c : Char}
    (h : inStridedRanges (changedRuns images expansions) c.toNat = false) : mapCase images expansions c = [c] := by
  rw [inStridedRanges, changedRuns, List.any_append, List.any_map, List.any_map, Bool.or_eq_false_iff,
    List.any_eq_false, List.any_eq_false] at h
  obtain ⟨himages, hexpansions⟩ := h
  have hlookup : expansions.lookup c.toNat = none := by
    refine List.lookup_eq_none_iff.2 fun entry hentry => bne_iff_ne.2 fun heq => ?_
    have := hexpansions entry hentry
    simp [← heq] at this
  have himage : imageOf? images c.toNat = none := by
    rw [imageOf?, Option.map_eq_none_iff, List.find?_eq_none]
    exact himages
  rw [mapCase, hlookup]
  dsimp only
  rw [himage]

theorem codeSet_upper_disjoint : codeSet upperRanges &&& codeSet (changedRuns upperImages upperExpansions) = 0 := by
  decide +kernel

theorem codeSet_lower_disjoint : codeSet lowerRanges &&& codeSet (changedRuns lowerImages lowerExpansions) = 0 := by
  decide +kernel

theorem codeSet_upper_lower_disjoint : codeSet upperRanges &&& codeSet lowerRanges = 0 := by
  decide +kernel

/-- An ASCII letter is not both a capital and a small one. -/
theorem not_isLower_of_ascii {c : Char} (h : c.isUpper) : ¬c.isLower = true := by
  intro hlower
  have hcapital : c.val ≥ 'A'.val ∧ c.val ≤ 'Z'.val := of_decide_eq_true h
  have hsmall : 'a'.val ≤ c.val := of_decide_eq_true (Bool.and_eq_true_iff.1 hlower).1
  exact absurd (UInt32.le_trans hsmall hcapital.2) (by decide)

/-- An upper-case character is its own upper case. -/
theorem upperChar_of_isUpper {c : Char} (h : isUpper c) : upperChar c = [c] := by
  unfold isUpper at h
  unfold upperChar
  by_cases hascii : c.toNat < 128
  · rw [if_pos hascii] at h ⊢
    have hlower : ¬(c.val ≥ 'a'.val ∧ c.val ≤ 'z'.val) := fun hin =>
      not_isLower_of_ascii h (Bool.and_eq_true_iff.2 ⟨decide_eq_true hin.1, decide_eq_true hin.2⟩)
    exact congrArg List.singleton (dif_neg hlower)
  · rw [if_neg hascii] at h ⊢
    exact mapCase_of_unchanged (inStridedRanges_of_disjoint codeSet_upper_disjoint h)

/-- A lower-case character is its own lower case. -/
theorem lowerChar_of_isLower {c : Char} (h : isLower c) : lowerChar c = [c] := by
  unfold isLower at h
  unfold lowerChar
  by_cases hascii : c.toNat < 128
  · rw [if_pos hascii] at h ⊢
    have hupper : ¬(c.val ≥ 'A'.val ∧ c.val ≤ 'Z'.val) := fun hin =>
      not_isLower_of_ascii (decide_eq_true hin) h
    exact congrArg List.singleton (dif_neg hupper)
  · rw [if_neg hascii] at h ⊢
    exact mapCase_of_unchanged (inStridedRanges_of_disjoint codeSet_lower_disjoint h)

/-- No character has both cases. -/
theorem isLower_of_isUpper {c : Char} (h : isUpper c) : isLower c = false := by
  unfold isUpper at h
  unfold isLower
  by_cases hascii : c.toNat < 128
  · rw [if_pos hascii] at h ⊢
    exact Bool.eq_false_iff.2 (not_isLower_of_ascii h)
  · rw [if_neg hascii] at h ⊢
    exact inStridedRanges_of_disjoint codeSet_upper_lower_disjoint h

end SequenceNotation.Text
