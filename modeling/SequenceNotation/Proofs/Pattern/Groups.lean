import Mathlib.Tactic.ByContra
import SequenceNotation.Pattern.Definition
import SequenceNotation.Pattern.Reading

/-!
# Reading groups

A text in a group is read as it is on its own: the groups around it wait until it is closed, and its pattern is one
item of the group around it.
-/

namespace SequenceNotation.Pattern

namespace ReadingState

/-- A state in the middle of a group without a name. -/
def within (state : ReadingState) (around : Branches) (outer : List (Option String × Branches)) : ReadingState :=
  { state with outer := state.outer ++ (none, around) :: outer }

/-- What has failed once stays so. -/
theorem failed_read {state : ReadingState} (h : state.failed = true) (c : Char) : (state.read c).failed = true := by
  have hrepeat (least : Nat) (most : Option Nat) : (state.repeatLast least most).failed = true := by
    unfold repeatLast
    split
    · exact h
    · rfl
  have hclose : state.closeGroup.failed = true := by
    unfold closeGroup
    split
    · rfl
    · exact h
  -- only a repetition, the end of a group and what cannot be read set the mark of failure, and nothing clears it
  unfold read
  split
  · unfold readPlain
    split <;> first | exact h | exact hrepeat _ _ | exact hclose
  · unfold readEscaped
    split <;> exact h
  · unfold readProperty
    split
    · split
      · exact h
      · rfl
    · exact h
  · unfold readGroupHead
    split
    · exact h
    · split <;> exact h
  · split
    · exact h
    · unfold readInClass
      split <;> exact h
  · unfold readInClass
    split <;> exact h
  · unfold readEscapedInClass
    split <;> exact h
  · unfold readCount
    split
    · dsimp only
      split
      · exact hrepeat _ _
      · split
        · exact hrepeat _ _
        · rfl
      · rfl
    · exact h

theorem failed_foldl_read {state : ReadingState} (h : state.failed = true) (text : List Char) :
    (text.foldl read state).failed = true := by
  induction text generalizing state with
  | nil => exact h
  | cons c rest ih => exact ih (failed_read h c)

variable (around : Branches) (outer : List (Option String × Branches))

theorem repeatLast_within (state : ReadingState) (least : Nat) (most : Option Nat) :
    (state.within around outer).repeatLast least most = (state.repeatLast least most).within around outer := by
  obtain ⟨mode, ⟨done, items⟩, outer', failed⟩ := state
  cases items <;> rfl

theorem closeGroup_within {state : ReadingState} (h : state.closeGroup.failed = false) :
    (state.within around outer).closeGroup = state.closeGroup.within around outer := by
  obtain ⟨mode, inner, outer', failed⟩ := state
  cases outer' with
  | nil => cases h
  | cons entry rest => rfl

/-- Reading a character in a group does not touch what is around. -/
theorem read_within {state : ReadingState} {c : Char} (h : (state.read c).failed = false) :
    (state.within around outer).read c = (state.read c).within around outer := by
  obtain ⟨mode, inner, outer', failed⟩ := state
  cases mode with
  | plain =>
    by_cases hclose : c = ')'
    · -- the one character that looks at the groups around, of which there is one more
      subst hclose
      exact closeGroup_within around outer h
    · show readPlain (within _ around outer) c = (readPlain _ c).within around outer
      unfold readPlain
      split <;> first | rfl | exact absurd rfl hclose | exact repeatLast_within around outer _ _ _
  | escaped =>
    show readEscaped (within _ around outer) c = (readEscaped _ c).within around outer
    unfold readEscaped
    split <;> rfl
  | property text =>
    show readProperty (within _ around outer) text c = (readProperty _ text c).within around outer
    unfold readProperty
    split
    · split <;> rfl
    · rfl
  | groupHead text =>
    show readGroupHead (within _ around outer) text c = (readGroupHead _ text c).within around outer
    unfold readGroupHead
    split
    · rfl
    · split <;> rfl
  | classHead =>
    show (if c = '^' then _ else readInClass (within _ around outer) {} c) =
      within (if c = '^' then _ else readInClass _ {} c) around outer
    split
    · rfl
    · unfold readInClass
      split <;> rfl
  | inClass items =>
    show readInClass (within _ around outer) items c = (readInClass _ items c).within around outer
    unfold readInClass
    split <;> rfl
  | escapedInClass items =>
    show readEscapedInClass (within _ around outer) items c = (readEscapedInClass _ items c).within around outer
    unfold readEscapedInClass
    split <;> rfl
  | count text =>
    show readCount (within _ around outer) text c = (readCount _ text c).within around outer
    unfold readCount
    split
    · dsimp only
      split
      · exact repeatLast_within around outer _ _ _
      · split
        · exact repeatLast_within around outer _ _ _
        · rfl
      · rfl
    · rfl

theorem foldl_read_within {state : ReadingState} {text : List Char} (h : (text.foldl read state).failed = false) :
    text.foldl read (state.within around outer) = (text.foldl read state).within around outer := by
  induction text generalizing state with
  | nil => rfl
  | cons c rest ih =>
    have hstep : (state.read c).failed = false := by
      by_contra hfailed
      rw [Bool.not_eq_false] at hfailed
      exact Bool.false_ne_true (h.symm.trans (failed_foldl_read hfailed rest))
    rw [List.foldl_cons, List.foldl_cons, read_within around outer hstep, ih h]

/-- A text in a group adds its pattern as an item. -/
theorem foldl_read_grouped {text : List Char} {pattern : Pattern} (h : readPattern? text = some pattern)
    (inner : Branches) :
    (grouped text).foldl read { mode := .plain, inner, outer } =
      { mode := .plain, inner := { inner with items := pattern :: inner.items }, outer } := by
  have hresult : ¬((text.foldl read {}).failed ∨ (text.foldl read {}).mode ≠ .plain ∨ (text.foldl read {}).outer ≠ []) ∧
      some (text.foldl read {}).inner.pattern = some pattern := by
    unfold readPattern? result? at h
    split at h
    · cases h
    · exact ⟨‹_›, h⟩
  obtain ⟨hfine, hpattern⟩ := hresult
  -- The parenthesis closes the group in the state that reading the text on its own ends in.
  have hfailed : (text.foldl read {}).failed = false := by
    rw [← Bool.not_eq_true]
    exact fun hfailed => hfine (.inl hfailed)
  rw [grouped, List.foldl_append, List.foldl_append]
  show read (text.foldl read (within {} inner outer)) ')' = _
  rw [foldl_read_within inner outer hfailed]
  generalize text.foldl read {} = state at *
  obtain ⟨mode, own, outer', failed⟩ := state
  simp only [ne_eq, not_or, Decidable.not_not] at hfine hpattern
  obtain ⟨hnot, rfl, rfl⟩ := hfine
  cases hpattern
  cases hfailed
  rfl

end ReadingState

end SequenceNotation.Pattern
