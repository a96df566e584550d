import SequenceNotation.Text.Blank
import SequenceNotation.Text.Letter

/-!
# Texts without blanks

Digits and letters are no blanks, and trimming leaves a text as it is whose ends are none.
-/

namespace SequenceNotation.Text

/-- No code point lies in two tables whose runs keep apart. -/
theorem inRanges_of_disjoint {ranges ranges' : List (Nat × Nat)}
    (hdisjoint : ∀ run ∈ ranges, ∀ run' ∈ ranges', run.2 < run'.1 ∨ run'.2 < run.1) {code : Nat}
    (h : inRanges ranges code) : inRanges ranges' code = false := by
  obtain ⟨run, hrun, hin⟩ := List.any_eq_true.1 h
  refine List.any_eq_false.2 fun run' hrun' hin' => ?_
  simp only [Bool.and_eq_true, decide_eq_true_eq] at hin hin'
  have hapart := hdisjoint run hrun run' hrun'
  omega

theorem inRanges_of_isDigit {c : Char} (h : c.isDigit) : inRanges [(48, 57)] c.toNat := by
  have hzero : '0'.toNat ≤ c.toNat := UInt32.le_iff_toNat_le.1 (of_decide_eq_true (Bool.and_eq_true_iff.1 h).1)
  have hnine : c.toNat ≤ '9'.toNat := UInt32.le_iff_toNat_le.1 (of_decide_eq_true (Bool.and_eq_true_iff.1 h).2)
  exact List.any_eq_true.2 ⟨(48, 57), .head _, by simpa using ⟨hzero, hnine⟩⟩

theorem inRanges_of_isLetter {c : Char} (h : isLetter c) : inRanges letterRanges c.toNat := by
  unfold isLetter at h
  split at h
  · have hbounds {low high : Char} (hlow : low.val ≤ c.val) (hhigh : c.val ≤ high.val) :
        low.toNat ≤ c.toNat ∧ c.toNat ≤ high.toNat :=
      ⟨UInt32.le_iff_toNat_le.1 hlow, UInt32.le_iff_toNat_le.1 hhigh⟩
    rcases Bool.or_eq_true_iff.1 h with hupper | hlower
    · obtain ⟨hlow, hhigh⟩ := of_decide_eq_true hupper
      exact List.any_eq_true.2 ⟨(65, 90), .head _, by simpa using @hbounds 'A' 'Z' hlow hhigh⟩
    · obtain ⟨hlow, hhigh⟩ := Bool.and_eq_true_iff.1 hlower
      exact List.any_eq_true.2 ⟨(97, 122), .tail _ (.head _),
        by simpa using @hbounds 'a' 'z' (of_decide_eq_true hlow) (of_decide_eq_true hhigh)⟩
  · exact h

theorem isBlank_of_isDigit {c : Char} (h : c.isDigit = true) : isBlank c = false :=
  inRanges_of_disjoint (by decide) (inRanges_of_isDigit h)

theorem isBlank_of_isLetter {c : Char} (h : isLetter c) : isBlank c = false :=
  inRanges_of_disjoint (by decide +kernel) (inRanges_of_isLetter h)

theorem trimLeft_of_head {text : List Char} (h : text.head?.any isBlank = false) : trimLeft text = text := by
  cases text with
  | nil => rfl
  | cons c rest =>
    have hc : ¬isBlank c = true := by simpa using h
    exact List.dropWhile_cons_of_neg hc

/-- Trimming leaves a text as it is if no blanks stand at its ends. -/
theorem trim_of_ends {text : List Char} (hhead : text.head?.any isBlank = false)
    (hlast : text.getLast?.any isBlank = false) : trim text = text := by
  have hback : text.reverse.dropWhile isBlank = text.reverse :=
    trimLeft_of_head (by rw [List.head?_reverse, hlast])
  rw [trim, trimLeft_of_head hhead, trimRight, hback, List.reverse_reverse]

theorem trim_of_forall {text : List Char} (h : ∀ c ∈ text, isBlank c = false) : trim text = text := by
  have hnone {c? : Option Char} (hmem : ∀ c ∈ c?, c ∈ text) : c?.any isBlank = false := by
    cases c? with
    | none => rfl
    | some c => exact h c (hmem c rfl)
  exact trim_of_ends (hnone fun _ => List.mem_of_mem_head?) (hnone fun _ => List.mem_of_mem_getLast?)

/-- Trimming does not see the blanks around a text. -/
theorem trim_append_blanks {before after : List Char} (text : List Char) (hbefore : ∀ c ∈ before, isBlank c = true)
    (hafter : ∀ c ∈ after, isBlank c = true) : trim (before ++ text ++ after) = trim text := by
  have hleft (rest : List Char) : trimLeft (before ++ rest) = trimLeft rest := List.dropWhile_append_of_pos hbefore
  have hright (front : List Char) : trimRight (front ++ after) = trimRight front := by
    have hblanks : ∀ c ∈ after.reverse, isBlank c = true := fun c hc => hafter c (List.mem_reverse.1 hc)
    rw [trimRight, trimRight, List.reverse_append, List.dropWhile_append_of_pos hblanks]
  unfold trim
  rw [List.append_assoc, hleft, trimLeft, List.dropWhile_append]
  split
  · -- the text is all blank, and so is what stands behind it
    rename_i hempty
    have hnothing : after.dropWhile isBlank = [] := by
      rw [← List.append_nil after, List.dropWhile_append_of_pos hafter, List.dropWhile_nil]
    rw [hnothing, trimLeft, List.isEmpty_iff.1 hempty]
  · exact hright _

end SequenceNotation.Text
