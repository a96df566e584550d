import Mathlib.Data.List.Basic
import SequenceNotation.Proofs.Sequence.Rewriting

/-!
# Placeholders among the tokens of an expression

An identifier that is the name of a placeholder and no member behind a point should become the tokens
of a literal, and every other token should stay.  The substitution works on characters, though, and has
its own notion of words, of quotes and of what stands behind a point.
-/

namespace SequenceNotation.Sequence

open SequenceNotation.Number SequenceNotation.Script SequenceNotation.Text

/-! ### What should become of the tokens -/

/-- The placeholder that a token is, unless it is the name of a member behind a point. -/
def tokenPlaceholder? (behindDot : Bool) : Token → Option Placeholder
  | .identifier name =>
    match name.toList with
    | [c] => if behindDot then none else Placeholder.ofChar? c
    | _ => none
  | _ => none

/-- The tokens of the literal of a value. -/
def literalTokens (value : Value) (memberFollows : Bool) : List Token :=
  (tokensIn (literalOf value memberFollows)).getD []

/-- What should become of a token, given the character that follows it. -/
def tokenImage (values : PlaceholderValues) (behindDot : Bool) (token : Token)
    (follower : Option Char) : List Token :=
  match tokenPlaceholder? behindDot token with
  | some placeholder => literalTokens (values.lookup placeholder) (follower = some '.')
  | none => [token]

/-- What should become of the tokens of a source, each given with the character that follows it. -/
def replaceTokens (values : PlaceholderValues) : Bool → List (Token × Option Char) → List Token
  | _, [] => []
  | behindDot, (token, follower) :: rest =>
    tokenImage values behindDot token follower ++ replaceTokens values (token = .mark .dot) rest

/-! ### What becomes of the text of a token -/

/-- Whether a number without an exponent gets one by what becomes of the text behind it. -/
def gainsExponent (values : PlaceholderValues) (mode : SubstitutionMode) (text tail : List Char) :
    Bool :=
  mantissaLength (text ++ tail) = text.length &&
    0 < exponentLength (substituteFrom values (mode.after text) tail)

/-- Whether a token is treated as it should be: its text is touched exactly if it is a placeholder, and it
does not go on with what becomes of the text behind it. -/
def keepsToken (values : PlaceholderValues) (mode : SubstitutionMode) (behindDot : Bool)
    (token : Token) (text tail : List Char) : Bool :=
  untouched mode tail.head? text = (tokenPlaceholder? behindDot token).isNone &&
    !gainsExponent values mode text tail

/-- Whether the substitution does to every token of a text what should be done. -/
def faithful (values : PlaceholderValues) : SubstitutionMode → Bool → List Char → Bool
  | _, _, [] => true
  | mode, behindDot, c :: rest =>
    let (lexeme, n) := lexemeAt c rest
    let text := c :: rest.take n
    let tail := rest.drop n
    match lexeme with
    | .token token =>
      keepsToken values mode behindDot token text tail &&
        faithful values (mode.after text) (token = .mark .dot) tail
    | _ => faithful values (mode.after text) behindDot tail
termination_by _ _ text => text.length
decreasing_by all_goals simp only [List.length_drop, List.length_cons]; omega

/-! ### Lexemes that stay -/

theorem isSourceBlank_of_isLiteralHead {d : Char} (hd : isLiteralHead d = true) :
    isSourceBlank d = false := by
  simp only [isLiteralHead, Bool.or_eq_true, decide_eq_true_eq] at hd
  rcases hd with (((hdigit | rfl) | rfl) | rfl) | rfl
  · obtain ⟨k, rfl⟩ := exists_digit hdigit
    clear hdigit
    revert k
    decide
  all_goals rfl

theorem isMarkTail_of_isLiteralHead {d : Char} (hd : isLiteralHead d = true) :
    isMarkTail d = false := by
  simp only [isLiteralHead, Bool.or_eq_true, decide_eq_true_eq] at hd
  rcases hd with (((hdigit | rfl) | rfl) | rfl) | rfl
  · obtain ⟨k, rfl⟩ := exists_digit hdigit
    clear hdigit
    revert k
    decide
  all_goals rfl

section

variable (values : PlaceholderValues) (mode : SubstitutionMode) {c : Char} {rest : List Char} {n : Nat}

/-- Blanks stay and a comment ends where it ended. -/
theorem tokensIn_substituteFrom_skipped (h : lexemeAt c rest = (.skipped, n)) :
    tokensIn (substituteFrom values mode (c :: rest)) =
      tokensIn (substituteFrom values (mode.after (c :: rest.take n)) (rest.drop n)) := by
  have hview := lexemeAt_view c rest
  rw [h] at hview
  dsimp only at hview
  cases hview with
  | blank hc =>
    -- No blank is a placeholder and no replacement begins with one, so the run of blanks is the same.
    have hnone : mode.placeholder? c rest.head? = none :=
      placeholder?_of_not_mem
        (fun hmem => by simp [isSourceBlank_of_mem_placeholderLetters hmem] at hc) mode _
    obtain ⟨-, hdrop⟩ := run_substituteFrom values
      (fun _ => isSourceBlank_of_mem_placeholderLetters)
      (fun _ => isSourceBlank_of_isLiteralHead) (mode.next c) rest
    have hlexeme : lexemeAt c (substituteFrom values (mode.next c) rest) = (.skipped,
        runLength isSourceBlank (substituteFrom values (mode.next c) rest)) := by
      unfold lexemeAt
      rw [if_pos hc]
    rw [substituteFrom_cons_of_none values hnone, tokensIn_skipped hlexeme, drop_runLength, hdrop,
      SubstitutionMode.after_cons, take_runLength, drop_runLength]
  | comment hc hrest =>
    -- The second slash stays as well, and what becomes of the rest has its line ends where they were.
    subst hc
    have hnone : mode.placeholder? '/' rest.head? = none := placeholder?_of_not_mem (by decide) mode _
    have hhead : (substituteFrom values (mode.next '/') rest).head? = some '/' := by
      rw [head?_substituteFrom values _ fun c hc => ?_, hrest]
      rw [hrest] at hc
      cases hc
      decide
    rw [substituteFrom_cons_of_none values hnone, tokensIn_comment hhead,
      dropWhile_newline_substituteFrom, SubstitutionMode.after_cons, take_runLength, drop_runLength]

/-- Where a name ends, no placeholder follows. -/
theorem head?_substituteFrom_name {tail : List Char}
    (h : ∀ d ∈ tail.head?, isNamePart d = false) :
    (substituteFrom values mode tail).head? = tail.head? := by
  refine head?_substituteFrom values mode fun d hd hmem => ?_
  have hpart := isNamePart_of_mem_placeholderLetters hmem
  rw [h d hd] at hpart
  cases hpart

theorem isNamePart_head?_drop (rest : List Char) :
    ∀ d ∈ (rest.drop (runLength isNamePart rest)).head?, isNamePart d = false := by
  intro d hd
  rw [drop_runLength] at hd
  have := List.head?_dropWhile_not isNamePart rest
  rw [Option.mem_def.1 hd] at this
  exact this

/-- No placeholder stands behind a text that ends with a character of a word or with a point. -/
theorem blocks_after {text : List Char} (hne : text ≠ [])
    (h : ∀ c ∈ text.getLast?, isWord c = true ∨ c = '.') : (mode.after text).Blocks := by
  have hlast := List.dropLast_append_getLast? (text.getLast hne) (List.getLast?_eq_some_getLast hne)
  rw [← hlast, SubstitutionMode.after_append]
  exact SubstitutionMode.blocks_next (h _ (List.getLast?_eq_some_getLast hne)) _

theorem numberAt?_getLast {text : List Char} {lexeme : Lexeme} {n : Nat}
    (h : numberAt? text = some (lexeme, n)) :
    ∀ c ∈ (text.take n).getLast?, isWord c = true ∨ c = '.' := by
  intro c hc
  rcases numberAt?_chars h with hdecimal | ⟨-, hall⟩
  · exact (hdecimal.last c hc).imp_left isWord_of_isDigit
  · exact .inl (isWord_of_isAlphanum (hall c (List.mem_of_getLast? hc)))

/-- A lexeme stays in front of what becomes of the text behind it, unless it gets an exponent. -/
theorem lexemeAt_substituteFrom {token : Token} (h : lexemeAt c rest = (.token token, n))
    (hexponent : gainsExponent values mode (c :: rest.take n) (rest.drop n) = false) :
    lexemeAt c (rest.take n ++ substituteFrom values (mode.after (c :: rest.take n)) (rest.drop n)) =
      (.token token, n) := by
  have hview := lexemeAt_view c rest
  have hn := lexemeAt_le c rest
  rw [h] at hview hn
  dsimp only at hview hn
  rw [← h]
  cases hview with
  | string hc hbody hrest =>
    subst hrest
    exact lexemeAt_string_lookahead hc hbody _
  | identifier hc =>
    exact lexemeAt_name_lookahead hc
      (head?_substituteFrom_name values _ (isNamePart_head?_drop rest))
  | keyword hc =>
    exact lexemeAt_name_lookahead hc
      (head?_substituteFrom_name values _ (isNamePart_head?_drop rest))
  | number hc hnumber =>
    rename_i n
    obtain ⟨n, rfl⟩ := Nat.exists_eq_add_one.2 (numberAt?_pos hnumber)
    rw [Nat.add_sub_cancel] at hexponent ⊢
    have hlast := numberAt?_getLast hnumber
    rw [List.take_succ_cons] at hlast
    have hblocks := blocks_after mode (List.cons_ne_nil c _) hlast
    have hhead := hblocks.head?_substituteFrom values (rest.drop n)
    have hsecond := hblocks.head?_tail_substituteFrom values (rest.drop n)
    -- the number goes on only if it is a mantissa and gains an exponent
    have hnone : mantissaLength (c :: rest) = n + 1 →
        exponentLength (substituteFrom values (mode.after (c :: rest.take n)) (rest.drop n)) = 0 := by
      intro hmantissa
      rw [gainsExponent, List.cons_append, List.take_append_drop, hmantissa, List.length_cons,
        List.length_take_of_le (by omega), decide_eq_true rfl, Bool.true_and,
        decide_eq_false_iff_not] at hexponent
      exact Nat.eq_zero_of_not_pos hexponent
    rw [lexemeAt_number hc (numberAt?_lookahead hnumber hhead hsecond hnone), h]
  | mark hc hcomment hnumber hmark =>
    rename_i n
    rcases hc with hstart | rfl
    · rw [h]
      exact lexemeAt_mark_lookahead hstart hcomment hmark hn
        (run_substituteFrom values (fun _ => isMarkTail_of_mem_placeholderLetters)
          (fun _ => isMarkTail_of_isLiteralHead) _ _).1
    · rw [atStart?_point] at hmark
      cases hmark
      have hdigit := isDigit_of_numberAt?_point hnumber
      have hblocks := SubstitutionMode.blocks_next (.inr rfl) mode
      rw [h]
      refine lexemeAt_point ?_
      show (substituteFrom values (mode.next '.') rest).head?.any Char.isDigit = false
      rw [hblocks.head?_substituteFrom values, hdigit]

/-! ### Placeholders -/

theorem exists_literalTokens (value : Value) (memberFollows : Bool) :
    LiteralTokens (literalOf value memberFollows) (literalTokens value memberFollows) ∧
      ∀ tail, EndsLiteral memberFollows (literalOf value memberFollows) tail →
        tokensIn (literalOf value memberFollows ++ tail) =
          (tokensIn tail).map (literalTokens value memberFollows ++ ·) := by
  obtain ⟨tokens, hform, htokens⟩ := (literalForm value memberFollows).exists_tokens
  have hnil := htokens [] ⟨by simp, by simp, by simp⟩
  rw [List.append_nil, tokensIn_nil, Option.map_some, List.append_nil] at hnil
  have heq : literalTokens value memberFollows = tokens := by
    rw [literalTokens, hnil]
    rfl
  rw [heq]
  exact ⟨hform, htokens⟩

theorem tokenPlaceholder?_eq_some {behindDot : Bool} {token : Token} {placeholder : Placeholder}
    (h : tokenPlaceholder? behindDot token = some placeholder) :
    ∃ name letter, token = .identifier name ∧ name.toList = [letter] ∧ behindDot = false ∧
      Placeholder.ofChar? letter = some placeholder := by
  unfold tokenPlaceholder? at h
  split at h
  · rename_i name
    split at h
    · rename_i letter hletter
      split at h
      · cases h
      · rename_i hdot
        exact ⟨name, letter, rfl, hletter, by simpa using hdot, h⟩
    · cases h
  · cases h

/-- An identifier of one letter stands in front of no further character of a name. -/
theorem lexemeAt_letter {name : String} {letter : Char}
    (h : lexemeAt c rest = (.token (.identifier name), n)) (hname : name.toList = [letter]) :
    letter = c ∧ n = 0 ∧ ∀ d ∈ rest.head?, isNamePart d = false := by
  obtain ⟨-, htext, rfl⟩ := lexemeAt_identifier h
  rw [hname] at htext
  obtain ⟨rfl, hnil⟩ := List.cons.inj htext
  have hzero : runLength isNamePart rest = 0 := by
    rw [take_runLength] at hnil
    rw [runLength, ← hnil]
    rfl
  refine ⟨rfl, hzero, ?_⟩
  have hpart := isNamePart_head?_drop rest
  rwa [hzero, List.drop_zero] at hpart

/-- A letter that is replaced where no name goes on becomes the tokens of its literal. -/
theorem tokensIn_substituteFrom_literal {placeholder : Placeholder}
    (hplaceholder : mode.placeholder? c rest.head? = some placeholder)
    (hpart : ∀ d ∈ rest.head?, isNamePart d = false) :
    tokensIn (substituteFrom values mode (c :: rest)) =
      (tokensIn (substituteFrom values (mode.next c) rest)).map
        (literalTokens (values.lookup placeholder) (rest.head? = some '.') ++ ·) := by
  have hhead := head?_substituteFrom_name values (mode.next c) hpart
  rw [substituteFrom_cons_of_some values hplaceholder]
  refine (exists_literalTokens _ _).2 _ ⟨?_, ?_, ?_⟩
  · rw [hhead]
    exact (SubstitutionMode.placeholder?_eq_some hplaceholder).2.1
  · rw [hhead]
    exact fun hpoint => decide_eq_true hpoint
  · rw [hhead]
    exact fun d hd _ => hpart d hd

/-- A letter that is touched is a placeholder where it stands. -/
theorem placeholder?_of_touched {letter : Char} {follower : Option Char} {placeholder : Placeholder}
    (hletter : Placeholder.ofChar? letter = some placeholder)
    (h : untouched mode follower [letter] = false) :
    mode.placeholder? letter follower = some placeholder := by
  rw [untouched, List.head?_nil, Option.none_or, untouched, Bool.and_true] at h
  cases hplaceholder : mode.placeholder? letter follower with
  | none =>
    rw [hplaceholder] at h
    cases h
  | some placeholder' =>
    have hletter' := (SubstitutionMode.placeholder?_eq_some hplaceholder).1
    rw [hletter] at hletter'
    exact hletter'.symm

/-- What becomes of a text is what becomes of its first lexeme, and behind it of the rest. -/
theorem substituteFrom_split (n : Nat) :
    substituteFrom values mode (c :: rest) =
      rewritten values mode (rest.drop n).head? (c :: rest.take n) ++
        substituteFrom values (mode.after (c :: rest.take n)) (rest.drop n) := by
  have hsplit : c :: rest = (c :: rest.take n) ++ rest.drop n := by
    rw [List.cons_append, List.take_append_drop]
  conv_lhs => rw [hsplit, substituteFrom_append]

/-- A token that is kept or replaced as it should be comes first in what becomes of the text. -/
theorem tokensIn_substituteFrom_token {behindDot : Bool} {token : Token}
    (h : lexemeAt c rest = (.token token, n))
    (hkeeps : keepsToken values mode behindDot token (c :: rest.take n) (rest.drop n) = true) :
    tokensIn (substituteFrom values mode (c :: rest)) =
      (tokensIn (substituteFrom values (mode.after (c :: rest.take n)) (rest.drop n))).map
        (tokenImage values behindDot token (rest.drop n).head? ++ ·) := by
  simp only [keepsToken, Bool.and_eq_true, Bool.not_eq_true', decide_eq_true_eq] at hkeeps
  obtain ⟨htext, hexponent⟩ := hkeeps
  cases hplaceholder : tokenPlaceholder? behindDot token with
  | some placeholder =>
    -- A placeholder is a letter alone, in whose place the tokens of its literal come.
    obtain ⟨name, letter, rfl, hname, -, hletter⟩ := tokenPlaceholder?_eq_some hplaceholder
    obtain ⟨rfl, rfl, hpart⟩ := lexemeAt_letter h hname
    rw [hplaceholder] at htext
    simp only [tokenImage, hplaceholder]
    exact tokensIn_substituteFrom_literal values mode
      (placeholder?_of_touched mode hletter htext) hpart
  | none =>
    have hn : n ≤ rest.length := by
      have := lexemeAt_le c rest
      rwa [h] at this
    have hdrop (tail : List Char) : (rest.take n ++ tail).drop n = tail := by
      rw [List.drop_append_of_le_length (by simp [hn]), List.drop_take]
      simp
    rw [hplaceholder] at htext
    simp only [tokenImage, hplaceholder]
    rw [substituteFrom_split values mode n, rewritten_of_untouched values htext, List.cons_append,
      tokensIn_token (lexemeAt_substituteFrom values mode h hexponent), hdrop]
    rfl

theorem faithful_skipped {behindDot : Bool} (h : lexemeAt c rest = (.skipped, n)) :
    faithful values mode behindDot (c :: rest) =
      faithful values (mode.after (c :: rest.take n)) behindDot (rest.drop n) := by
  rw [faithful, h]

theorem faithful_token {behindDot : Bool} {token : Token}
    (h : lexemeAt c rest = (.token token, n)) :
    faithful values mode behindDot (c :: rest) =
      (keepsToken values mode behindDot token (c :: rest.take n) (rest.drop n) &&
        faithful values (mode.after (c :: rest.take n)) (token = .mark .dot) (rest.drop n)) := by
  rw [faithful, h]

/-- Where every token is treated as it should be, the tokens are replaced as they should be. -/
theorem tokensIn_of_faithful {text : List Char} {followed : List (Token × Option Char)}
    (hread : ReadAs text followed) (mode : SubstitutionMode) (behindDot : Bool)
    (h : faithful values mode behindDot text = true) :
    tokensIn (substituteFrom values mode text) = some (replaceTokens values behindDot followed) := by
  induction hread generalizing mode behindDot with
  | nil => exact tokensIn_nil
  | skipped hlexeme _ ih =>
    rw [faithful_skipped values mode hlexeme] at h
    rw [tokensIn_substituteFrom_skipped values mode hlexeme, ih _ _ h]
  | token hlexeme _ ih =>
    rw [faithful_token values mode hlexeme, Bool.and_eq_true] at h
    rw [tokensIn_substituteFrom_token values mode hlexeme h.1, ih _ _ h.2]
    rfl

end

end SequenceNotation.Sequence
