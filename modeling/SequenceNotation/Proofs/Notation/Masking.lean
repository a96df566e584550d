import SequenceNotation.Notation.Mask
import SequenceNotation.Text.Bytes

/-!
# Places in masks

A mask has as many bytes as its text, and a place of the mask in front of anything but the filler is a place of the
text: a character is covered as a whole or not at all.  What shows in a mask are the characters of the text.
-/

namespace SequenceNotation.Notation

open SequenceNotation.Text

/-- What a character of a text leaves in the mask. -/
def maskedChar (literals : OpenLiterals) (c : Char) : List Char :=
  if literals.shows c then [c] else List.replicate c.utf8Size filler

theorem maskFrom_cons (literals : OpenLiterals) (c : Char) (rest : List Char) :
    maskFrom literals (c :: rest) = maskedChar literals c ++ maskFrom (literals.after c) rest :=
  rfl

theorem openAfter_append (literals : OpenLiterals) (front back : List Char) :
    openAfter literals (front ++ back) = openAfter (openAfter literals front) back :=
  List.foldl_append

theorem byteLength_replicate_filler (n : Nat) : byteLength (List.replicate n filler) = n := by
  induction n with
  | zero => rfl
  | succ n ih =>
    have hfiller : filler.utf8Size = 1 := by decide
    rw [List.replicate_succ, byteLength_cons, ih, hfiller, Nat.add_comm]

theorem byteLength_maskedChar (literals : OpenLiterals) (c : Char) :
    byteLength (maskedChar literals c) = c.utf8Size := by
  unfold maskedChar
  split
  · rfl
  · exact byteLength_replicate_filler _

theorem byteLength_maskFrom (literals : OpenLiterals) (text : List Char) :
    byteLength (maskFrom literals text) = byteLength text := by
  induction text generalizing literals with
  | nil => rfl
  | cons c rest ih => rw [maskFrom_cons, byteLength_append, byteLength_maskedChar, ih, byteLength_cons]

/-! ### What a place of the mask is in the text -/

/-- A character leaves itself, or the filler only. -/
theorem maskedChar_cases (literals : OpenLiterals) (c : Char) :
    maskedChar literals c = [c] ∨ ∃ n, maskedChar literals c = List.replicate (n + 1) filler := by
  unfold maskedChar
  split
  · exact .inl rfl
  · exact .inr ⟨c.utf8Size - 1, by rw [Nat.sub_add_cancel (Char.utf8Size_pos c)]⟩

/-- A place in front of anything but the filler is a place of the text. -/
theorem exists_of_maskFrom_eq {literals : OpenLiterals} {text front back : List Char}
    (h : maskFrom literals text = front ++ back) (hback : back.head? ≠ some filler) :
    ∃ before behind, text = before ++ behind ∧ front = maskFrom literals before ∧
      back = maskFrom (openAfter literals before) behind := by
  induction text generalizing literals front with
  | nil =>
    obtain ⟨rfl, rfl⟩ := List.append_eq_nil_iff.1 h.symm
    exact ⟨[], [], rfl, rfl, rfl⟩
  | cons c text ih =>
    rw [maskFrom_cons] at h
    rcases List.append_eq_append_iff.1 h with ⟨inner, rfl, hrest⟩ | ⟨inner, hown, hback'⟩
    · obtain ⟨before, behind, rfl, hbefore, hbehind⟩ := ih hrest
      exact ⟨c :: before, behind, rfl, by rw [maskFrom_cons, hbefore], hbehind⟩
    · cases front with
      | nil => exact ⟨[], c :: text, rfl, rfl, by rw [hback', ← List.nil_append inner, ← hown]; rfl⟩
      | cons d front =>
        cases inner with
        | nil =>
          rw [List.append_nil] at hown
          exact ⟨[c], text, rfl, by rw [← hown, maskFrom_cons]; exact (List.append_nil _).symm, hback'⟩
        | cons e inner =>
          -- the place would lie inside a covered character
          rcases maskedChar_cases literals c with hshown | ⟨n, hcovered⟩
          · rw [hshown] at hown
            exact absurd (congrArg List.length hown) (by simp)
          · have he : e ∈ List.replicate (n + 1) filler := by
              rw [← hcovered, hown]
              exact List.mem_append_right _ List.mem_cons_self
            rw [hback', List.eq_of_mem_replicate he] at hback
            exact absurd rfl hback

/-- A word without fillers that shows in a mask stands in the text. -/
theorem exists_of_maskFrom_eq_word {literals : OpenLiterals} {text word rest : List Char}
    (h : maskFrom literals text = word ++ rest) (hword : filler ∉ word) :
    ∃ behind, text = word ++ behind ∧ rest = maskFrom (openAfter literals word) behind := by
  induction word generalizing literals text with
  | nil => exact ⟨text, rfl, h.symm⟩
  | cons d word ih =>
    obtain ⟨hd, hrest⟩ := not_or.1 (mt List.mem_cons.2 hword)
    cases text with
    | nil => cases h
    | cons c text =>
      rw [maskFrom_cons] at h
      rcases maskedChar_cases literals c with hshown | ⟨n, hcovered⟩
      · rw [hshown] at h
        obtain ⟨rfl, htail⟩ := List.cons.inj h
        obtain ⟨behind, rfl, hbehind⟩ := ih htail hrest
        exact ⟨behind, rfl, hbehind⟩
      · rw [hcovered, List.replicate_succ] at h
        exact absurd (List.cons.inj h).1 hd

/-! ### Masks of plain and of quoted text -/

/-- What follows a text after which nothing is open is masked on its own. -/
theorem mask_append {front : List Char} (h : openAfter .none front = .none) (back : List Char) :
    mask (front ++ back) = mask front ++ mask back := by
  rw [mask, maskFrom_append, h]
  rfl

/-- The first character of a text shows. -/
theorem head?_mask (text : List Char) : (mask text).head? = text.head? := by
  cases text <;> rfl

/-- The characters that open literals. -/
def openers : List Char :=
  ['"', '\'', '\x60', '(', '[', '\x7b']

theorem closer?_eq_none {c : Char} (h : c ∉ openers) : closer? c = none := by
  have hne {d : Char} (hd : d ∈ openers) : c ≠ d := fun heq => h (heq ▸ hd)
  simp [closer?, isQuote, hne (d := '"') (by decide), hne (d := '\'') (by decide), hne (d := '\x60') (by decide),
    hne (d := '(') (by decide), hne (d := '[') (by decide), hne (d := '\x7b') (by decide)]

theorem after_none {c : Char} (h : closer? c = none) : OpenLiterals.none.after c = .none := by
  show ({ closers := (closer? c).toList, escaped := false } : OpenLiterals) = .none
  rw [h]
  rfl

theorem openAfter_plain {text : List Char} (h : ∀ c ∈ text, closer? c = none) : openAfter .none text = .none := by
  induction text with
  | nil => rfl
  | cons c text ih =>
    obtain ⟨hc, htext⟩ := List.forall_mem_cons.1 h
    show openAfter (OpenLiterals.none.after c) text = _
    rw [after_none hc, ih htext]

/-- A text that opens no literal shows as it is. -/
theorem mask_plain {text : List Char} (h : ∀ c ∈ text, closer? c = none) : mask text = text := by
  induction text with
  | nil => rfl
  | cons c text ih =>
    obtain ⟨hc, htext⟩ := List.forall_mem_cons.1 h
    rw [mask, maskFrom_cons, after_none hc]
    exact congrArg (c :: ·) (ih htext)

section Quoted

variable {quote : Char} (hquote : isQuote quote)

include hquote

theorem after_quote : OpenLiterals.none.after quote = { closers := [quote] } := by
  simp [OpenLiterals.none, OpenLiterals.after, closer?, hquote]

theorem after_closing_quote : ({ closers := [quote] } : OpenLiterals).after quote = .none := by
  have hne : quote ≠ '\\' := by
    rintro rfl
    cases hquote
  simp [OpenLiterals.after, OpenLiterals.none, hne]

theorem after_quoted {c : Char} (hc : c ≠ quote ∧ c ≠ '\\') :
    ({ closers := [quote] } : OpenLiterals).after c = { closers := [quote] } := by
  simp [OpenLiterals.after, hquote, hc.1, hc.2]

theorem openAfter_quoted {text : List Char} (htext : ∀ c ∈ text, c ≠ quote ∧ c ≠ '\\') :
    openAfter { closers := [quote] } text = { closers := [quote] } := by
  induction text with
  | nil => rfl
  | cons c text ih =>
    obtain ⟨hc, hrest⟩ := List.forall_mem_cons.1 htext
    show openAfter (OpenLiterals.after _ c) text = _
    rw [after_quoted hquote hc, ih hrest]

theorem maskFrom_quoted {text : List Char} (htext : ∀ c ∈ text, c ≠ quote ∧ c ≠ '\\') :
    maskFrom { closers := [quote] } text = List.replicate (byteLength text) filler := by
  induction text with
  | nil => rfl
  | cons c text ih =>
    obtain ⟨hc, hrest⟩ := List.forall_mem_cons.1 htext
    have hcovered : maskedChar { closers := [quote] } c = List.replicate c.utf8Size filler := by
      simp [maskedChar, OpenLiterals.shows, after_quoted hquote hc]
    rw [maskFrom_cons, hcovered, after_quoted hquote hc, ih hrest, byteLength_cons, List.replicate_append_replicate]

/-- Nothing is open behind a text in quotes. -/
theorem openAfter_enclosed {text : List Char} (htext : ∀ c ∈ text, c ≠ quote ∧ c ≠ '\\') :
    openAfter .none (quote :: (text ++ [quote])) = .none := by
  show openAfter (OpenLiterals.none.after quote) (text ++ [quote]) = _
  rw [after_quote hquote, openAfter_append, openAfter_quoted hquote htext]
  exact after_closing_quote hquote

/-- A text in quotes shows as the quotes with fillers between them. -/
theorem mask_enclosed {text : List Char} (htext : ∀ c ∈ text, c ≠ quote ∧ c ≠ '\\') :
    mask (quote :: (text ++ [quote])) = quote :: (List.replicate (byteLength text) filler ++ [quote]) := by
  have hclosing : maskFrom { closers := [quote] } [quote] = [quote] := by
    rw [maskFrom_cons, maskedChar, OpenLiterals.shows, after_closing_quote hquote]
    rfl
  rw [mask, maskFrom_cons, after_quote hquote, maskFrom_append, openAfter_quoted hquote htext,
    maskFrom_quoted hquote htext, hclosing]
  rfl

end Quoted

end SequenceNotation.Notation
