import SequenceNotation.Text.Case

/-!
# The lower case of a text within another one

A character has the same lower case everywhere, except for the capital sigma: it takes its final form if a cased
character stands in front of it and none behind, where ignorable characters are passed over.  So the lower case of a
text may be another one where the text stands within a longer one.  This module says exactly when: by the sigmas for
which the text itself does not show what stands in front of them or behind them.
-/

namespace SequenceNotation.Text

/-- Whether the characters next to a sigma are looked for beyond this one. -/
def isCaseIgnorable (c : Char) : Bool :=
  inRanges caseIgnorableRanges c.toNat

/-- Whether a sigma between a reversed text and another one has its final form. -/
def isFinalSigma (before behind : List Char) : Bool :=
  startsCased before && !startsCased behind

/-- The lower case of a character between a reversed text and another one. -/
def lowerBetween (before : List Char) (c : Char) (behind : List Char) : List Char :=
  if c = 'Σ' then [if isFinalSigma before behind then 'ς' else 'σ'] else lowerChar c

/-- The lower case of a text between a reversed text and another one. -/
def lowerWithin (before : List Char) : List Char → List Char → List Char
  | [], _ => []
  | c :: rest, behind => lowerBetween before c (rest ++ behind) ++ lowerWithin (c :: before) rest behind

/-! ### Lower case along a text -/

theorem lowerFrom_append (before text behind : List Char) :
    lowerFrom before (text ++ behind) = lowerWithin before text behind ++ lowerFrom (text.reverse ++ before) behind := by
  induction text generalizing before with
  | nil => rfl
  | cons c rest ih => simp [lowerFrom, lowerWithin, lowerBetween, isFinalSigma, ih (c :: before)]

theorem lowerFrom_singleton (before : List Char) (c : Char) : lowerFrom before [c] = lowerBetween before c [] := by
  simp [lowerFrom, lowerBetween, isFinalSigma]

theorem lowerText_eq (text : List Char) : lowerText text = lowerWithin [] text [] := by
  simpa [lowerText, lowerFrom] using lowerFrom_append [] text []

/-- The lower case of a text with others around it. -/
theorem lowerText_append_append (front text back : List Char) :
    lowerText (front ++ text ++ back) =
      lowerWithin [] front (text ++ back) ++ lowerWithin front.reverse text back ++
        lowerFrom (text.reverse ++ front.reverse) back := by
  simp [lowerText, lowerFrom_append]

theorem length_lowerBetween (before behind before' behind' : List Char) (c : Char) :
    (lowerBetween before c behind).length = (lowerBetween before' c behind').length := by
  unfold lowerBetween
  split <;> simp

theorem length_lowerWithin (before behind before' behind' text : List Char) :
    (lowerWithin before text behind).length = (lowerWithin before' text behind').length := by
  induction text generalizing before before' with
  | nil => rfl
  | cons c rest ih =>
    simp only [lowerWithin, List.length_append]
    rw [length_lowerBetween before (rest ++ behind) before' (rest ++ behind') c, ih (c :: before) (c :: before')]

theorem lowerBetween_eq_iff {before behind before' behind' : List Char} {c : Char} :
    lowerBetween before c behind = lowerBetween before' c behind' ↔
      (c = 'Σ' → isFinalSigma before behind = isFinalSigma before' behind') := by
  unfold lowerBetween
  by_cases hc : c = 'Σ'
  · cases isFinalSigma before behind <;> cases isFinalSigma before' behind' <;> simp [hc]
  · simp [hc]

/-- A text has the same lower case in two places if and only if each of its sigmas has the same form in both. -/
theorem lowerWithin_eq_iff {before behind before' behind' text : List Char} :
    lowerWithin before text behind = lowerWithin before' text behind' ↔
      ∀ pre post, text = pre ++ 'Σ' :: post →
        isFinalSigma (pre.reverse ++ before) (post ++ behind) = isFinalSigma (pre.reverse ++ before') (post ++ behind') := by
  induction text generalizing before before' with
  | nil => simp [lowerWithin]
  | cons c rest ih =>
    have hlength := length_lowerBetween before (rest ++ behind) before' (rest ++ behind') c
    simp only [lowerWithin]
    constructor
    · intro hsame pre post heq
      -- Lower case has the same length in both places, so the parts are equal one by one.
      obtain ⟨hfirst, hrest⟩ := List.append_inj hsame hlength
      rw [lowerBetween_eq_iff] at hfirst
      rw [ih] at hrest
      cases pre with
      | nil =>
        obtain ⟨rfl, rfl⟩ : c = 'Σ' ∧ rest = post := by simpa using heq
        simpa using hfirst rfl
      | cons d pre =>
        obtain ⟨rfl, rfl⟩ : c = d ∧ rest = pre ++ 'Σ' :: post := by simpa using heq
        simpa using hrest pre post rfl
    · intro h
      have hfirst : lowerBetween before c (rest ++ behind) = lowerBetween before' c (rest ++ behind') := by
        rw [lowerBetween_eq_iff]
        rintro rfl
        simpa using h [] rest rfl
      have hrest : lowerWithin (c :: before) rest behind = lowerWithin (c :: before') rest behind' := by
        rw [ih]
        intro pre post heq
        simpa using h (c :: pre) post (by simp [heq])
      rw [hfirst, hrest]

/-! ### Sigmas whose form depends on what stands around the text -/

@[simp] theorem startsCased_nil : startsCased [] = false :=
  rfl

theorem startsCased_append (text rest : List Char) :
    startsCased (text ++ rest) = if text.all isCaseIgnorable then startsCased rest else startsCased text := by
  induction text with
  | nil => simp
  | cons c text ih =>
    have hstep (behind : List Char) : startsCased (c :: behind) =
        if isCaseIgnorable c then startsCased behind else inRanges casedRanges c.toNat := by
      unfold startsCased isCaseIgnorable
      by_cases hc : inRanges caseIgnorableRanges c.toNat <;> simp [hc]
    by_cases hc : isCaseIgnorable c <;> simp [hstep, hc, ih]

theorem startsCased_of_ignorable {text : List Char} (h : text.all isCaseIgnorable) : startsCased text = false := by
  have hnothing := startsCased_append text []
  rwa [List.append_nil, if_pos h] at hnothing

/-- A text has a sigma that a cased character in front of the text makes final. -/
def SigmaOpenInFront (text : List Char) : Prop :=
  ∃ pre post, text = pre ++ 'Σ' :: post ∧ pre.all isCaseIgnorable ∧ startsCased post = false

/-- A text has a final sigma that a cased character behind the text keeps from being final. -/
def SigmaOpenBehind (text : List Char) : Prop :=
  ∃ pre post, text = pre ++ 'Σ' :: post ∧ startsCased pre.reverse ∧ post.all isCaseIgnorable

/-- A text has its own lower case where no sigma is open to what stands there. -/
theorem lowerWithin_eq_lowerText {front text back : List Char} (hfront : front = [] ∨ ¬SigmaOpenInFront text)
    (hback : back = [] ∨ ¬SigmaOpenBehind text) : lowerWithin front.reverse text back = lowerText text := by
  rw [lowerText_eq, lowerWithin_eq_iff]
  intro pre post heq
  simp only [isFinalSigma, startsCased_append, List.all_reverse, List.append_nil]
  by_cases hpre : pre.all isCaseIgnorable
  · -- in the text alone nothing cased stands in front of the sigma, so that it is not final
    have hown : startsCased pre.reverse = false := startsCased_of_ignorable (by simpa using hpre)
    rcases hfront with rfl | hfront
    · simp [hown]
    · have hpost : startsCased post = true := by
        apply Bool.of_not_eq_false
        exact fun hpost => hfront ⟨pre, post, heq, hpre, hpost⟩
      have hshown : ¬post.all isCaseIgnorable = true := fun hall => by simp [startsCased_of_ignorable hall] at hpost
      rw [if_neg hshown, hpost, hown]
      simp
  · -- something cased or plain stands in front, which hides what is in front of the text
    by_cases hpost : post.all isCaseIgnorable
    · rcases hback with rfl | hback
      · rw [if_neg hpre, if_pos hpost, startsCased_nil, startsCased_of_ignorable hpost]
      · have hown : startsCased pre.reverse = false := by
          apply Bool.of_not_eq_true
          exact fun hown => hback ⟨pre, post, heq, hown, hpost⟩
        rw [if_neg hpre, hown]
        simp
    · rw [if_neg hpre, if_neg hpost]

/-- A cased character in front of a text changes its lower case if a sigma is open in front. -/
theorem lowerWithin_ne_of_openInFront {text : List Char} (h : SigmaOpenInFront text) {c : Char}
    (hc : startsCased [c]) : lowerWithin [c] text [] ≠ lowerText text := by
  obtain ⟨pre, post, heq, hpre, hpost⟩ := h
  rw [lowerText_eq, ne_eq, lowerWithin_eq_iff]
  intro hsame
  have hsigma := hsame pre post heq
  have hown : startsCased pre.reverse = false := startsCased_of_ignorable (by simpa using hpre)
  have hbehind : startsCased (pre.reverse ++ [c]) = true := by
    rw [startsCased_append, if_pos (by simpa using hpre), hc]
  simp [isFinalSigma, hown, hbehind, hpost] at hsigma

/-- A cased character behind a text changes its lower case if a sigma is open behind. -/
theorem lowerWithin_ne_of_openBehind {text : List Char} (h : SigmaOpenBehind text) {c : Char}
    (hc : startsCased [c]) : lowerWithin [] text [c] ≠ lowerText text := by
  obtain ⟨pre, post, heq, hpre, hpost⟩ := h
  rw [lowerText_eq, ne_eq, lowerWithin_eq_iff]
  intro hsame
  have hsigma := hsame pre post heq
  have hbehind : startsCased (post ++ [c]) = true := by
    rw [startsCased_append, if_pos hpost, hc]
  simp [isFinalSigma, hpre, hbehind, startsCased_of_ignorable hpost] at hsigma

/-- There is a cased character other than a given one that is its own lower case everywhere. -/
theorem exists_cased_ne (c? : Option Char) :
    ∃ c, startsCased [c] = true ∧ (∀ before behind, lowerBetween before c behind = [c]) ∧ c? ≠ some c := by
  by_cases ha : c? = some 'a'
  · refine ⟨'b', by decide +kernel, fun _ _ => ?_, by simp [ha]⟩
    simp [lowerBetween, lowerChar]
  · refine ⟨'a', by decide +kernel, fun _ _ => ?_, ha⟩
    simp [lowerBetween, lowerChar]

end SequenceNotation.Text
