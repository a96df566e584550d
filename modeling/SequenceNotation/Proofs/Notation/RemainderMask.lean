import SequenceNotation.Proofs.Notation.Slices

/-!
# Masks of remainders

A line is masked as a whole to find its start, and what remains is masked again to find the modifiers.  Both masks
agree: where a start ends, no quotes and brackets are open, so masking begins anew there.  The reason is that a
character which shows in a mask although something is open closes it, and no boundary begins with such a character.
-/

namespace SequenceNotation.Notation

open SequenceNotation.Text SequenceNotation.Pattern

/-! ### What can be open -/

/-- The characters that close literals. -/
def closingChars : List Char :=
  ['"', '\'', '\x60', ')', ']', '\x7d']

/-- What can be open behind a text: closing characters are expected, and only inside quotes can a backslash stand in
front of a place. -/
structure CanBeOpen (literals : OpenLiterals) : Prop where
  closers : ∀ c ∈ literals.closers, c ∈ closingChars
  escaped : literals.escaped = true → ∃ quote ∈ literals.closers.head?, isQuote quote = true

theorem canBeOpen_none : CanBeOpen .none :=
  ⟨by simp [OpenLiterals.none], by simp [OpenLiterals.none]⟩

theorem mem_closingChars_of_closer? {c closer : Char} (h : closer? c = some closer) : closer ∈ closingChars := by
  unfold closer? at h
  split at h
  · rename_i hquote
    obtain rfl := Option.some.inj h
    simpa [isQuote, closingChars, or_assoc] using Or.inl hquote
  · repeat' split at h
    all_goals cases h
    all_goals decide

theorem CanBeOpen.after {literals : OpenLiterals} (h : CanBeOpen literals) (c : Char) :
    CanBeOpen (literals.after c) := by
  have hopened : ∀ d ∈ (closer? c).toList, d ∈ closingChars := by
    intro d hd
    exact mem_closingChars_of_closer? (Option.mem_toList.1 hd)
  obtain ⟨closers, escaped⟩ := literals
  obtain ⟨hclosers, hescaped⟩ := h
  cases closers with
  | nil =>
    have hnot : escaped = false := by simpa using hescaped
    exact ⟨by simpa [OpenLiterals.after] using hopened, by simp [OpenLiterals.after, hnot]⟩
  | cons expected outer =>
    simp only [OpenLiterals.after]
    split
    · -- a character that was escaped
      exact ⟨hclosers, by simp⟩
    · split
      · -- a backslash, which escapes only inside of quotes
        rename_i hquote
        refine ⟨hclosers, fun _ => ⟨expected, rfl, ?_⟩⟩
        simp_all
      · -- what closes, what counts as plain in quotes, and what may open: nothing of it escapes
        have hnot : escaped = false := by
          by_contra hbackslash
          obtain ⟨quote, hhead, hquote⟩ := hescaped (by simpa using hbackslash)
          obtain rfl := Option.some.inj hhead
          simp_all
        split
        · exact ⟨fun d hd => hclosers d (List.mem_cons_of_mem expected hd), by simp [hnot]⟩
        · split
          · exact ⟨hclosers, by simp [hnot]⟩
          · refine ⟨?_, by simp [hnot]⟩
            intro d hd
            rcases List.mem_append.1 hd with hnew | hold
            · exact hopened d hnew
            · exact hclosers d hold

theorem CanBeOpen.openAfter {literals : OpenLiterals} (h : CanBeOpen literals) (text : List Char) :
    CanBeOpen (openAfter literals text) := by
  induction text generalizing literals with
  | nil => exact h
  | cons c text ih => exact ih (h.after c)

/-- A character that shows and closes nothing stands outside of all literals. -/
theorem CanBeOpen.eq_none_of_shows {literals : OpenLiterals} (h : CanBeOpen literals) {c : Char}
    (hshows : literals.shows c = true) (hc : c ∉ closingChars) : literals = .none := by
  obtain ⟨closers, escaped⟩ := literals
  cases closers with
  | nil =>
    have hnot : escaped = false := by simpa using h.escaped
    rw [hnot]
    rfl
  | cons expected outer =>
    have hne : c ≠ expected := by
      rintro rfl
      exact hc (h.closers c List.mem_cons_self)
    -- only the expected character takes a closer away
    have hopen : (OpenLiterals.after ⟨expected :: outer, escaped⟩ c).closers ≠ [] := by
      simp only [OpenLiterals.after, if_neg hne]
      repeat' split
      all_goals simp
    simp [OpenLiterals.shows, hopen] at hshows

/-! ### Boundaries -/

/-- Nothing is open in front of a place of a mask where a token ends. -/
theorem CanBeOpen.eq_none_of_endsToken {literals : OpenLiterals} (h : CanBeOpen literals) {keys : List (List Char)}
    (hkeys : keys ⊆ keySpellings) {text : List Char} (hends : EndsToken none keys (maskFrom literals text)) :
    literals = .none := by
  -- A token ends in front of a blank or a key, neither of which begins with what an open literal shows.
  have hfirst : ∃ c ∈ (maskFrom literals text).head?, c ∉ filler :: closingChars := by
    rcases hends with ⟨c, hhead, hblank⟩ | ⟨word, hword, -⟩ | ⟨key, hkey, hprefix⟩
    · refine ⟨c, hhead, fun hmem => ?_⟩
      have hall : ∀ c ∈ filler :: closingChars, isBlank c = false := forall_of_all (by decide)
      rw [hall c hmem] at hblank
      cases hblank
    · cases hword
    · have hall : ∀ key ∈ keySpellings, key.head?.any (· ∉ filler :: closingChars) := by decide
      obtain ⟨c, hhead, hc⟩ := (Option.any_eq_true ..).1 (hall key (hkeys hkey))
      obtain ⟨tail, rfl⟩ := List.head?_eq_some_iff.1 hhead
      obtain ⟨rest, hrest⟩ := hprefix
      exact ⟨c, by rw [← hrest]; rfl, of_decide_eq_true hc⟩
  obtain ⟨c, hhead, hc⟩ := hfirst
  obtain ⟨hfiller, hclosing⟩ := not_or.1 (mt List.mem_cons.2 hc)
  cases text with
  | nil => cases hhead
  | cons d text =>
    rw [maskFrom_cons, maskedChar] at hhead
    split at hhead
    · rename_i hshows
      obtain rfl := Option.some.inj hhead
      exact h.eq_none_of_shows hshows hclosing
    · rw [← Nat.sub_add_cancel (Char.utf8Size_pos d), List.replicate_succ] at hhead
      exact absurd (Option.some.inj hhead).symm hfiller

/-- Where a token of a mask ends in front of more text, nothing is open. -/
theorem CanBeOpen.exists_of_isToken {literals : OpenLiterals} (h : CanBeOpen literals) {keys : List (List Char)}
    (hkeys : keys ⊆ keySpellings) (text : List Char) :
    ∃ body rest, text = body ++ rest ∧
      IsToken (EndsToken none keys) (maskFrom literals body) (maskFrom (Notation.openAfter literals body) rest) ∧
      (rest = [] ∨ Notation.openAfter literals body = .none) := by
  obtain ⟨token, rest, hmask, htoken⟩ := exists_isToken (EndsToken none keys) (maskFrom literals text)
  obtain ⟨body, behind, rfl, rfl, rfl⟩ := Notation.exists_of_isToken filler_not_mem_none
    (fun key hkey => keySpellings_shown key (hkeys hkey)) htoken hmask
  refine ⟨body, behind, rfl, htoken, ?_⟩
  rcases htoken.ended with hnil | hends
  · -- a mask is empty only for the empty text
    have hlength := byteLength_maskFrom (Notation.openAfter literals body) behind
    rw [hnil] at hlength
    exact .inl (eq_nil_of_byteLength_eq_zero hlength.symm)
  · exact .inr ((h.openAfter body).eq_none_of_endsToken hkeys hends)

/-! ### Remainders -/

/-- The body behind a mark ends where nothing is open, or with its text. -/
theorem openAfter_of_bodyEnd (kind : StartMark) {front body rest : List Char}
    (h : kind.bodyEnd (Segments.ofDelimiter none) (mask (front ++ (body ++ rest))) (byteLength front) =
      byteLength (front ++ body)) : rest = [] ∨ openAfter .none (front ++ body) = .none := by
  have hopen := canBeOpen_none.openAfter front
  have hbody {keys : List (List Char)} (hkeys : keys ⊆ keySpellings)
      (hend : ∀ token behind, IsToken (EndsToken none keys) token behind →
        mask (front ++ (body ++ rest)) = mask front ++ (token ++ behind) →
        byteLength (mask front ++ token) = byteLength (front ++ body)) :
      rest = [] ∨ openAfter .none (front ++ body) = .none := by
    obtain ⟨own, behind, htext, htoken, hclosed⟩ := hopen.exists_of_isToken hkeys (body ++ rest)
    have hlength := hend _ _ htoken (by rw [mask, maskFrom_append, htext, maskFrom_append _ own]; rfl)
    rw [byteLength_append, byteLength_append, mask, byteLength_maskFrom, byteLength_maskFrom] at hlength
    have hsplit := splitAtByte_byteLength own behind
    rw [← htext, Nat.add_left_cancel hlength, splitAtByte_byteLength] at hsplit
    obtain ⟨rfl, rfl⟩ := Prod.mk.inj hsplit
    rwa [openAfter_append]
  have hfront : byteLength front = byteLength (mask front) := (byteLength_maskFrom ..).symm
  cases kind with
  | expression =>
    refine hbody (List.nil_subset _) fun token behind htoken hmask => ?_
    have hend := @expressionBoundaryAfter_isToken none token behind htoken (mask front)
    rw [← hmask, ← hfront] at hend
    exact hend.symm.trans h
  | date | ownList | predefined | function =>
    refine hbody (fun _ => id) fun token behind htoken hmask => ?_
    have hend := @boundaryAfter_isToken none token behind htoken (mask front)
    rw [← hmask, ← hfront] at hend
    exact hend.symm.trans h

/-- What remains of a line is masked as it is in the mask of the line: nothing is open where the start ends, unless the
line ends there. -/
theorem mask_remainder (defaultStart line : String) :
    ∃ front remainder, trim line.toList = front ++ remainder ∧
      (classify (Segments.ofDelimiter none) defaultStart line).remainder = String.ofList remainder ∧
      (splitAtByte (byteLength front) (mask (trim line.toList))).2 = mask remainder ∧
      (remainder = [] ∨ openAfter .none front = .none) := by
  obtain ⟨front, body, rest, htext, hremainder, hstart⟩ := takenApart_classify filler_not_mem_none defaultStart line
  rw [htext] at hstart ⊢
  have hclosed : rest = [] ∨ openAfter .none (front ++ body) = .none := by
    split at hstart
    · rename_i kind bodyStart hmark
      obtain ⟨rfl, hend, -⟩ := hstart
      exact openAfter_of_bodyEnd kind hend
    · obtain ⟨rfl, hend, -⟩ := hstart
      exact openAfter_of_bodyEnd .date hend
  have hmask : mask (front ++ (body ++ rest)) = mask (front ++ body) ++ mask rest := by
    rw [← List.append_assoc]
    rcases hclosed with rfl | hclosed
    · rw [List.append_nil]
      exact (List.append_nil _).symm
    · exact mask_append hclosed rest
  have hlength : byteLength (front ++ body) = byteLength (mask (front ++ body)) := (byteLength_maskFrom ..).symm
  refine ⟨front ++ body, rest, (List.append_assoc ..).symm, hremainder, ?_, hclosed⟩
  rw [hmask, hlength, splitAtByte_byteLength]

end SequenceNotation.Notation
