import Mathlib.Algebra.BigOperators.Group.List.Basic
import SequenceNotation.Format.NumberFormat

/-!
# Digits in groups

Digits are grouped from the right: each group but the first has the full size, the first has a digit at least, and a
separator stands in front of each other.  Without its separators a grouped text has the digits it was made of.
-/

namespace SequenceNotation.Format

/-- Digits in groups of one size from the right, with a separator in front of each group but the first. -/
def IsGrouped (separator : Char) (size : Nat) (digits grouped : List Char) : Prop :=
  ∃ (first : List Char) (groups : List (List Char)), digits = first ++ groups.flatten ∧
    grouped = first ++ groups.flatMap (separator :: ·) ∧ first ≠ [] ∧ first.length ≤ size ∧
    ∀ group ∈ groups, group.length = size

section Groups

variable {separator : Char} {size : Nat} {digits grouped : List Char}

theorem length_flatten_of_forall {groups : List (List Char)} (h : ∀ group ∈ groups, group.length = size) :
    groups.flatten.length = groups.length * size := by
  have hsum := List.sum_eq_card_nsmul (groups.map List.length) size (by simpa using h)
  rw [List.length_flatten, hsum, List.length_map]
  rfl

/-- A separator is written where a whole number of groups follows. -/
theorem isGrouped_groupDigits (hsize : 0 < size) (hne : digits ≠ []) :
    IsGrouped separator size digits (groupDigits separator size digits) := by
  induction digits with
  | nil => exact absurd rfl hne
  | cons c rest ih =>
    by_cases hrest : rest = []
    · subst hrest
      exact ⟨[c], [], rfl, by simp [groupDigits], List.cons_ne_nil _ _, hsize, List.forall_mem_nil _⟩
    · obtain ⟨first, groups, hdigits, hgrouped, hfirst, hlength, hgroups⟩ := ih hrest
      have hpos : 0 < first.length := List.length_pos_iff.2 hfirst
      have hmod : rest.length % size = first.length % size := by
        rw [hdigits, List.length_append, length_flatten_of_forall hgroups, Nat.add_mul_mod_self_right]
      rw [groupDigits, hgrouped]
      -- the other groups are full, so the rest is a whole number of groups exactly if its first one is full too
      split
      · -- the first group of the rest is full
        rename_i hfull
        have hsame : first.length = size := by
          rcases Nat.lt_or_eq_of_le hlength with hlt | heq
          · rw [hmod, Nat.mod_eq_of_lt hlt] at hfull
            omega
          · exact heq
        exact ⟨[c], first :: groups, by rw [hdigits]; rfl, rfl, List.cons_ne_nil _ _, hsize,
          List.forall_mem_cons.2 ⟨hsame, hgroups⟩⟩
      · rename_i hnot
        have hless : first.length ≠ size := by
          intro heq
          rw [hmod, heq, Nat.mod_self] at hnot
          exact hnot ⟨hrest, rfl⟩
        refine ⟨c :: first, groups, by rw [hdigits]; rfl, rfl, List.cons_ne_nil _ _, ?_, hgroups⟩
        rw [List.length_cons]
        omega

theorem filter_eq_self_of_not_mem (h : separator ∉ digits) : digits.filter (fun c => c ≠ separator) = digits := by
  refine List.filter_eq_self.2 fun c hc => decide_eq_true ?_
  rintro rfl
  exact h hc

/-- Without its separators the text has its digits. -/
theorem IsGrouped.filter_eq (h : IsGrouped separator size digits grouped) (hdigits : separator ∉ digits) :
    grouped.filter (fun c => c ≠ separator) = digits := by
  obtain ⟨first, groups, rfl, rfl, -, -, -⟩ := h
  rw [List.mem_append, not_or] at hdigits
  have hrest : (groups.flatMap (separator :: ·)).filter (fun c => c ≠ separator) = groups.flatten := by
    have hnone := hdigits.2
    clear hdigits
    induction groups with
    | nil => rfl
    | cons group groups ih =>
      rw [List.flatten_cons, List.mem_append, not_or] at hnone
      rw [List.flatMap_cons, List.filter_append, List.filter_cons_of_neg (by simp),
        filter_eq_self_of_not_mem hnone.1, ih hnone.2, List.flatten_cons]
  rw [List.filter_append, filter_eq_self_of_not_mem hdigits.1, hrest]

end Groups

/-- Digits as a format writes them: in groups if it has a separator. -/
def groupedWith (grouping : Option Char) (size : Nat) (digits : List Char) : List Char :=
  match grouping with
  | some separator => groupDigits separator size digits
  | none => digits

theorem mem_groupedWith {grouping : Option Char} {size : Nat} {digits : List Char} {c : Char}
    (h : c ∈ groupedWith grouping size digits) : c ∈ digits ∨ c ∈ grouping := by
  cases grouping with
  | none => exact .inl h
  | some separator =>
    change c ∈ groupDigits separator size digits at h
    induction digits with
    | nil => exact .inl h
    | cons d rest ih =>
      have hcons : c = d ∨ c = separator ∨ c ∈ groupDigits separator size rest := by
        rw [groupDigits] at h
        split at h
        · simpa using h
        · exact (List.mem_cons.1 h).imp_right .inr
      rcases hcons with rfl | rfl | hrest
      · exact .inl List.mem_cons_self
      · exact .inr rfl
      · exact (ih hrest).imp_left (List.mem_cons_of_mem d)

theorem head?_groupedWith (grouping : Option Char) (size : Nat) (digits : List Char) :
    (groupedWith grouping size digits).head? = digits.head? := by
  cases grouping with
  | none => rfl
  | some separator =>
    cases digits with
    | nil => rfl
    | cons d rest =>
      rw [groupedWith, groupDigits]
      split <;> rfl

/-- Without its separators, if there are any, the text has its digits. -/
theorem filter_groupedWith {grouping : Option Char} {size : Nat} {digits : List Char} (hsize : 0 < size)
    (hne : digits ≠ []) (hdigits : ∀ separator ∈ grouping, separator ∉ digits) :
    (groupedWith grouping size digits).filter (fun c => some c ≠ grouping) = digits := by
  cases grouping with
  | none => exact List.filter_eq_self.2 fun c _ => decide_eq_true (Option.some_ne_none c)
  | some separator =>
    have hgrouped := (@isGrouped_groupDigits separator size digits hsize hne).filter_eq (hdigits separator rfl)
    simpa only [groupedWith, ne_eq, Option.some.injEq] using hgrouped

end SequenceNotation.Format
