import SequenceNotation.Proofs.Sequence.Literal

/-!
# How a source is rewritten

The substitution goes through a source character by character.  A letter that stands alone as a word
becomes a literal, every other character stays; what is known of the first character behind a place
often decides which.
-/

namespace SequenceNotation.Sequence

open SequenceNotation.Number SequenceNotation.Script SequenceNotation.Text

/-! ### The letters of placeholders -/

/-- The letters that name placeholders. -/
def placeholderLetters : List Char :=
  ['_', 'o', 'O', 'c', 'C', 'p', 'P', 'a', 'A', 's', 'S', 'n', 'N', 'i', 'I']

theorem exists_capital {c : Char} (h : c.val ≥ 'A'.val ∧ c.val ≤ 'Z'.val) :
    ∃ k : Fin 26, c = Char.ofNat (65 + k) := by
  have hlow : 65 ≤ c.toNat := h.1
  have hhigh : c.toNat ≤ 90 := h.2
  refine ⟨⟨c.toNat - 65, by omega⟩, ?_⟩
  have hsum : 65 + (c.toNat - 65) = c.toNat := by omega
  show c = Char.ofNat (65 + (c.toNat - 65))
  rw [hsum, Char.ofNat_toNat]

theorem mem_placeholderLetters {c : Char} {placeholder : Placeholder}
    (h : Placeholder.ofChar? c = some placeholder) : c ∈ placeholderLetters := by
  by_cases hcapital : c.val ≥ 'A'.val ∧ c.val ≤ 'Z'.val
  · obtain ⟨k, rfl⟩ := exists_capital hcapital
    have hall : ∀ k : Fin 26, (Placeholder.ofChar? (Char.ofNat (65 + k))).isSome = true →
        Char.ofNat (65 + k) ∈ placeholderLetters := by decide
    exact hall k (by rw [h]; rfl)
  · have hlower : c.toLower = c := by
      unfold Char.toLower
      rw [dif_neg hcapital]
    unfold Placeholder.ofChar? at h
    rw [hlower] at h
    split at h <;> first | decide | cases h

section

variable {letter : Char} (hmem : letter ∈ placeholderLetters)
include hmem

theorem isNameStart_of_mem_placeholderLetters : isNameStart letter = true := by
  have hall : ∀ letter ∈ placeholderLetters, isNameStart letter = true := forall_of_all (by decide)
  exact hall letter hmem

theorem isNamePart_of_mem_placeholderLetters : isNamePart letter = true := by
  rw [isNamePart, isNameStart_of_mem_placeholderLetters hmem, Bool.true_or]

theorem isWord_of_mem_placeholderLetters : isWord letter = true := by
  have hall : ∀ letter ∈ placeholderLetters, isWord letter = true := forall_of_all (by decide)
  exact hall letter hmem

theorem isMarkTail_of_mem_placeholderLetters : isMarkTail letter = false := by
  have hall : ∀ letter ∈ placeholderLetters, isMarkTail letter = false := forall_of_all (by decide)
  exact hall letter hmem

theorem isSourceBlank_of_mem_placeholderLetters : isSourceBlank letter = false := by
  have hall : ∀ letter ∈ placeholderLetters, isSourceBlank letter = false := forall_of_all (by decide)
  exact hall letter hmem

/-- No keyword is a single letter. -/
theorem nameToken_of_mem_placeholderLetters :
    nameToken (String.ofList [letter]) = .identifier (String.ofList [letter]) := by
  have hall : ∀ letter ∈ placeholderLetters,
      nameToken (String.ofList [letter]) = .identifier (String.ofList [letter]) :=
    forall_of_all (by decide)
  exact hall letter hmem

end

namespace SubstitutionMode

/-- Where the substitution stands behind a text. -/
def after (mode : SubstitutionMode) (text : List Char) : SubstitutionMode :=
  text.foldl next mode

@[simp] theorem after_nil (mode : SubstitutionMode) : mode.after [] = mode := rfl

@[simp] theorem after_cons (mode : SubstitutionMode) (c : Char) (text : List Char) :
    mode.after (c :: text) = (mode.next c).after text := rfl

theorem after_append (mode : SubstitutionMode) (text tail : List Char) :
    mode.after (text ++ tail) = (mode.after text).after tail :=
  List.foldl_append

/-- No placeholder can stand here. -/
def Blocks (mode : SubstitutionMode) : Prop :=
  ∀ c follower, mode.placeholder? c follower = none

theorem ofChar?_eq_none {c : Char} (h : ∀ quote : Quote, c ≠ quote.char) :
    Quote.ofChar? c = none := by
  have hdouble : c ≠ '"' := h .double
  have hsingle : c ≠ '\'' := h .single
  have hback : c ≠ '\x60' := h .back
  simp [Quote.ofChar?, hdouble, hsingle, hback]

/-- Behind a character that is no quote the substitution stands in code behind it or between quotes. -/
theorem next_of_ne_quote {c : Char} (h : ∀ quote : Quote, c ≠ quote.char) (mode : SubstitutionMode) :
    mode.next c = .code (some c) ∨ ∃ quote escaped, mode.next c = .quoted quote escaped := by
  cases mode with
  | code before =>
    left
    simp only [next, ofChar?_eq_none h]
  | quoted quote escaped =>
    right
    simp only [next, if_neg (h quote)]
    split
    · exact ⟨quote, false, rfl⟩
    · split
      · exact ⟨quote, true, rfl⟩
      · exact ⟨quote, false, rfl⟩

theorem blocks_next {c : Char} (hc : isWord c = true ∨ c = '.') (mode : SubstitutionMode) :
    (mode.next c).Blocks := by
  have hquote (quote : Quote) : c ≠ quote.char := by
    rintro rfl
    cases quote <;> exact absurd hc (by decide)
  intro d follower
  rcases next_of_ne_quote hquote mode with h | ⟨quote, escaped, h⟩
  · rw [h]
    simp only [placeholder?]
    rcases hc with hword | rfl
    · rw [if_pos (by simp [hword])]
    · rw [if_pos (by simp)]
  · rw [h]
    rfl

theorem placeholder?_eq_some {mode : SubstitutionMode} {c : Char} {follower : Option Char}
    {placeholder : Placeholder} (h : mode.placeholder? c follower = some placeholder) :
    Placeholder.ofChar? c = some placeholder ∧ (∀ d ∈ follower, isWord d = false) ∧
      ∃ before, mode = .code before ∧ ∀ d ∈ before, isWord d = false ∧ d ≠ '.' := by
  cases mode with
  | quoted => cases h
  | code before =>
    simp only [placeholder?] at h
    split at h
    · cases h
    · rename_i hfree
      simp only [Bool.or_eq_true, not_or, Bool.not_eq_true, decide_eq_true_eq] at hfree
      obtain ⟨⟨hbefore, hfollower⟩, hpoint⟩ := hfree
      refine ⟨h, fun d hd => ?_, before, rfl, fun d hd => ⟨?_, ?_⟩⟩
      · rw [Option.mem_def.1 hd] at hfollower
        exact hfollower
      · rw [Option.mem_def.1 hd] at hbefore
        exact hbefore
      · rintro rfl
        exact hpoint hd

end SubstitutionMode

/-! ### What becomes of a text -/

/-- What becomes of a text that is followed by a character, or by nothing. -/
def rewritten (values : PlaceholderValues) (mode : SubstitutionMode) (follower : Option Char) :
    List Char → List Char
  | [] => []
  | c :: rest =>
    replacement values mode c (rest.head?.or follower) ++
      rewritten values (mode.next c) follower rest

/-- Whether no character of a text is taken for a placeholder. -/
def untouched : SubstitutionMode → Option Char → List Char → Bool
  | _, _, [] => true
  | mode, follower, c :: rest =>
    (mode.placeholder? c (rest.head?.or follower)).isNone && untouched (mode.next c) follower rest

section

variable (values : PlaceholderValues) {mode : SubstitutionMode} {c : Char} {rest : List Char}

theorem replacement_of_none {follower : Option Char} (h : mode.placeholder? c follower = none) :
    replacement values mode c follower = [c] := by
  rw [replacement, h]

theorem replacement_of_some {follower : Option Char} {placeholder : Placeholder}
    (h : mode.placeholder? c follower = some placeholder) :
    replacement values mode c follower =
      literalOf (values.lookup placeholder) (follower = some '.') := by
  rw [replacement, h]

/-- What stands for a placeholder begins as literals do. -/
theorem exists_replacement_cons {follower : Option Char} {placeholder : Placeholder}
    (h : mode.placeholder? c follower = some placeholder) :
    ∃ d more, replacement values mode c follower = d :: more ∧ isLiteralHead d = true := by
  rw [replacement_of_some values h]
  exact (literalForm _ _).exists_cons

/-- What stands for a letter begins with it only if it is the name of infinity. -/
theorem replacement_letter {letter : Char} {follower : Option Char} {placeholder : Placeholder}
    (hplaceholder : mode.placeholder? letter follower = some placeholder) {text : List Char}
    (h : replacement values mode letter follower = letter :: text) :
    letter = 'I' ∧ text = "nfinity".toList := by
  have hletter := (SubstitutionMode.placeholder?_eq_some hplaceholder).1
  have hmem := mem_placeholderLetters hletter
  have hhead : isLiteralHead letter = true := by
    obtain ⟨d, more, heq, hd⟩ := exists_replacement_cons values hplaceholder
    rw [h] at heq
    rwa [(List.cons.inj heq).1]
  have hcases : ∀ d ∈ placeholderLetters, isLiteralHead d = true → d = 'N' ∨ d = 'I' :=
    forall_of_all (by decide)
  -- both letters stand for counts, so the literal is the text of a number
  have hnumber : ∃ k, values.lookup placeholder = .number (Double.ofNat k) := by
    rcases hcases letter hmem hhead with rfl | rfl <;> cases hletter
    · exact ⟨_, rfl⟩
    · exact ⟨_, rfl⟩
  obtain ⟨k, hk⟩ := hnumber
  rw [replacement_of_some values hplaceholder, hk] at h
  rcases numberLiteral_head (Double.isNan_ofNat k) _ h with rfl | hdigit | hinfinity
  · exact absurd hmem (by decide)
  · rcases hcases letter hmem hhead with rfl | rfl <;> exact absurd hdigit (by decide)
  · exact hinfinity

theorem substituteFrom_append (mode : SubstitutionMode) (text tail : List Char) :
    substituteFrom values mode (text ++ tail) =
      rewritten values mode tail.head? text ++ substituteFrom values (mode.after text) tail := by
  induction text generalizing mode with
  | nil => rfl
  | cons c text ih =>
    rw [List.cons_append, substituteFrom, ih, rewritten, List.head?_append, List.append_assoc]
    rfl

theorem substituteFrom_cons_of_none (h : mode.placeholder? c rest.head? = none) :
    substituteFrom values mode (c :: rest) = c :: substituteFrom values (mode.next c) rest := by
  rw [substituteFrom, replacement_of_none values h]
  rfl

theorem substituteFrom_cons_of_some {placeholder : Placeholder}
    (h : mode.placeholder? c rest.head? = some placeholder) :
    substituteFrom values mode (c :: rest) =
      literalOf (values.lookup placeholder) (rest.head? = some '.') ++
        substituteFrom values (mode.next c) rest := by
  rw [substituteFrom, replacement_of_some values h]

theorem placeholder?_of_not_mem (hc : c ∉ placeholderLetters) (mode : SubstitutionMode)
    (follower : Option Char) : mode.placeholder? c follower = none := by
  rw [Option.eq_none_iff_forall_ne_some]
  intro placeholder h
  exact hc (mem_placeholderLetters (SubstitutionMode.placeholder?_eq_some h).1)

theorem head?_substituteFrom (mode : SubstitutionMode)
    (h : ∀ c ∈ rest.head?, c ∉ placeholderLetters) :
    (substituteFrom values mode rest).head? = rest.head? := by
  cases rest with
  | nil => rfl
  | cons c rest =>
    rw [substituteFrom_cons_of_none values (placeholder?_of_not_mem (h c rfl) mode _)]
    rfl

/-- Where a number ends, no placeholder follows. -/
theorem head?_substituteFrom_number (mode : SubstitutionMode) (h : EndsNumber rest) :
    (substituteFrom values mode rest).head? = rest.head? := by
  refine head?_substituteFrom values mode fun c hc hmem => ?_
  have hword := isWord_of_mem_placeholderLetters hmem
  rw [(h c hc).1] at hword
  cases hword

/-- Behind a character that keeps placeholders away the next one stays. -/
theorem SubstitutionMode.Blocks.substituteFrom_cons (h : mode.Blocks) :
    substituteFrom values mode (c :: rest) = c :: substituteFrom values (mode.next c) rest :=
  substituteFrom_cons_of_none values (h c _)

theorem SubstitutionMode.Blocks.head?_substituteFrom (h : mode.Blocks) (rest : List Char) :
    (substituteFrom values mode rest).head? = rest.head? := by
  cases rest with
  | nil => rfl
  | cons c rest =>
    rw [h.substituteFrom_cons values]
    rfl

/-- Behind a character of a word that stays the next character stays, too. -/
theorem SubstitutionMode.Blocks.head?_tail_substituteFrom (h : mode.Blocks) (rest : List Char) :
    ∀ c ∈ rest.head?, isWord c = true →
      (substituteFrom values mode rest).tail.head? = rest.tail.head? := by
  intro c hc hword
  obtain ⟨tail, rfl⟩ := List.head?_eq_some_iff.1 hc
  rw [h.substituteFrom_cons values, List.tail_cons, List.tail_cons]
  exact (blocks_next (.inl hword) mode).head?_substituteFrom values tail

/-- A run of characters stays that neither name placeholders nor begin literals. -/
theorem run_substituteFrom {p : Char → Bool} (hp : ∀ c ∈ placeholderLetters, p c = false)
    (hliteral : ∀ d, isLiteralHead d = true → p d = false) (mode : SubstitutionMode)
    (rest : List Char) :
    (substituteFrom values mode rest).takeWhile p = rest.takeWhile p ∧
      (substituteFrom values mode rest).dropWhile p =
        substituteFrom values (mode.after (rest.takeWhile p)) (rest.dropWhile p) := by
  induction rest generalizing mode with
  | nil => exact ⟨rfl, rfl⟩
  | cons c rest ih =>
    by_cases hc : p c = true
    · have hnone : mode.placeholder? c rest.head? = none :=
        placeholder?_of_not_mem (fun hmem => by simp [hp c hmem] at hc) mode _
      rw [substituteFrom_cons_of_none values hnone, List.takeWhile_cons_of_pos hc,
        List.takeWhile_cons_of_pos hc, List.dropWhile_cons_of_pos hc,
        List.dropWhile_cons_of_pos hc, (ih _).1, (ih _).2]
      exact ⟨rfl, rfl⟩
    · -- the run ends here, whether the character stays or a literal comes in its place
      have hhead : ∃ d tail, substituteFrom values mode (c :: rest) = d :: tail ∧ ¬p d = true := by
        cases hplaceholder : mode.placeholder? c rest.head? with
        | none => exact ⟨c, _, substituteFrom_cons_of_none values hplaceholder, hc⟩
        | some placeholder =>
          obtain ⟨d, more, heq, hd⟩ := exists_replacement_cons values hplaceholder
          refine ⟨d, more ++ substituteFrom values (mode.next c) rest, ?_, by simp [hliteral d hd]⟩
          rw [substituteFrom, heq]
          rfl
      obtain ⟨d, tail, heq, hd⟩ := hhead
      rw [List.takeWhile_cons_of_neg hc, List.dropWhile_cons_of_neg hc, heq,
        List.takeWhile_cons_of_neg hd, List.dropWhile_cons_of_neg hd]
      exact ⟨rfl, heq.symm⟩

/-- No line begins or ends by the substitution. -/
theorem dropWhile_newline_substituteFrom (mode : SubstitutionMode) (rest : List Char) :
    (substituteFrom values mode rest).dropWhile (· ≠ '\n') =
      substituteFrom values (mode.after (rest.takeWhile (· ≠ '\n'))) (rest.dropWhile (· ≠ '\n')) := by
  induction rest generalizing mode with
  | nil => rfl
  | cons c rest ih =>
    by_cases hc : c = '\n'
    · subst hc
      have hnone := placeholder?_of_not_mem (c := '\n') (by decide) mode rest.head?
      rw [substituteFrom_cons_of_none values hnone]
      simp [substituteFrom_cons_of_none values hnone]
    · have hpos : decide (c ≠ '\n') = true := by simpa using hc
      simp only [List.takeWhile_cons, List.dropWhile_cons, hpos, if_true,
        SubstitutionMode.after_cons]
      rw [← ih, substituteFrom]
      -- What becomes of any other character is dropped along with it.
      have hreplacement : ∀ d ∈ replacement values mode c rest.head?, decide (d ≠ '\n') = true := by
        intro d hd
        rw [decide_eq_true_eq]
        rintro rfl
        cases hplaceholder : mode.placeholder? c rest.head? with
        | none =>
          rw [replacement_of_none values hplaceholder, List.mem_singleton] at hd
          exact hc hd.symm
        | some placeholder =>
          rw [replacement_of_some values hplaceholder] at hd
          exact (literalForm _ _).newline_not_mem hd
      rw [List.dropWhile_append_of_pos hreplacement]

theorem rewritten_of_untouched {follower : Option Char} {text : List Char}
    (h : untouched mode follower text = true) : rewritten values mode follower text = text := by
  induction text generalizing mode with
  | nil => rfl
  | cons c text ih =>
    simp only [untouched, Bool.and_eq_true, Option.isNone_iff_eq_none] at h
    rw [rewritten, replacement_of_none values h.1, ih h.2]
    rfl

end

section

variable {mode : SubstitutionMode} {follower : Option Char} {text : List Char}

theorem untouched_of_not_mem (mode : SubstitutionMode) (follower : Option Char)
    (h : ∀ c ∈ text, c ∉ placeholderLetters) : untouched mode follower text = true := by
  induction text generalizing mode with
  | nil => rfl
  | cons c text ih =>
    rw [untouched, placeholder?_of_not_mem (h c (.head _)) mode, ih _ fun d hd => h d (.tail _ hd)]
    rfl

theorem SubstitutionMode.Blocks.untouched (h : mode.Blocks) (follower : Option Char)
    (htext : ∀ c ∈ text, isWord c = true) : untouched mode follower text = true := by
  induction text generalizing mode with
  | nil => rfl
  | cons c text ih =>
    rw [Sequence.untouched, h c,
      ih (blocks_next (.inl (htext c (.head _))) mode) fun d hd => htext d (.tail _ hd)]
    rfl

/-- A word of two letters or more stays. -/
theorem untouched_word (mode : SubstitutionMode) (follower : Option Char) {c d : Char}
    (htext : ∀ x ∈ c :: d :: text, isWord x = true) :
    untouched mode follower (c :: d :: text) = true := by
  have hnone : mode.placeholder? c (some d) = none := by
    rw [Option.eq_none_iff_forall_ne_some]
    intro placeholder h
    have := (SubstitutionMode.placeholder?_eq_some h).2.1 d rfl
    rw [htext d (.tail _ (.head _))] at this
    cases this
  have hblocks := SubstitutionMode.blocks_next (.inl (htext c (.head _))) mode
  rw [untouched, List.head?_cons, Option.some_or, hnone,
    hblocks.untouched follower fun x hx => htext x (.tail _ hx)]
  rfl

end

end SequenceNotation.Sequence
