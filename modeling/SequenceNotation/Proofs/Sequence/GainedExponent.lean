import SequenceNotation.Proofs.Sequence.TouchedTokens

/-!
# Numbers that get an exponent

A letter and a sign behind a number are an exponent as soon as digits follow them.  Where a placeholder
becomes these digits, one number stands for four tokens, and what follows comes too early.
-/

namespace SequenceNotation.Sequence

open SequenceNotation.Number SequenceNotation.Script SequenceNotation.Text

/-! ### How an exponent comes up -/

/-- A letter, a sign and a placeholder that together become an exponent. -/
structure GainedExponent (values : PlaceholderValues) (mode : SubstitutionMode) (e sign letter : Char)
    (rest : List Char) (placeholder : Placeholder) : Prop where
  exponent : isExponentLetter e = true
  signed : isSign sign = true
  ofChar : Placeholder.ofChar? letter = some placeholder
  ends : EndsNumber rest
  digits : DecimalText (literalOf (values.lookup placeholder) false)
  becomes : substituteFrom values mode (e :: sign :: letter :: rest) =
    e :: sign :: (literalOf (values.lookup placeholder) false ++
      substituteFrom values (((mode.next e).next sign).next letter) rest)

section

variable (values : PlaceholderValues) {mode : SubstitutionMode}

/-- A placeholder behind a letter and a sign becomes the digits of an exponent if its literal begins with one. -/
theorem gainedExponent_of_digit {e sign letter : Char} {rest : List Char} {placeholder : Placeholder}
    (hblocks : mode.Blocks) (he : isExponentLetter e = true) (hsign : isSign sign = true)
    (hplaceholder : ((mode.next e).next sign).placeholder? letter rest.head? = some placeholder)
    (hdigit : (literalOf (values.lookup placeholder) (rest.head? = some '.')).head?.any Char.isDigit = true) :
    GainedExponent values mode e sign letter rest placeholder := by
  have hblocks' := SubstitutionMode.blocks_next (.inl (isWord_of_isExponentLetter he)) mode
  -- Only a decimal text begins with a digit, and in front of a point there is none without parentheses.
  obtain ⟨hmember, hdecimal⟩ := (literalForm (values.lookup placeholder) (rest.head? = some '.')).decimalText hdigit
  obtain ⟨hletter, hfollower, -⟩ := SubstitutionMode.placeholder?_eq_some hplaceholder
  have hends : EndsNumber rest := by
    intro d hd
    refine ⟨hfollower d hd, ?_⟩
    rintro rfl
    exact of_decide_eq_false hmember hd
  have hbecomes : substituteFrom values mode (e :: sign :: letter :: rest) =
      e :: substituteFrom values (mode.next e) (sign :: letter :: rest) :=
    hblocks.substituteFrom_cons values
  rw [hblocks'.substituteFrom_cons values, substituteFrom_cons_of_some values hplaceholder,
    hmember] at hbecomes
  rw [hmember] at hdecimal
  exact ⟨he, hsign, hletter, hends, hdecimal, hbecomes⟩

/-- An exponent comes up only behind a letter and a sign, from a placeholder that becomes a number. -/
theorem exists_gainedExponent {tail : List Char} (hblocks : mode.Blocks)
    (hnone : exponentLength tail = 0) (hpos : 0 < exponentLength (substituteFrom values mode tail)) :
    ∃ e sign letter rest placeholder, tail = e :: sign :: letter :: rest ∧
      GainedExponent values mode e sign letter rest placeholder := by
  cases tail with
  | nil => exact absurd hpos (Nat.lt_irrefl 0)
  | cons e tail =>
    rw [hblocks.substituteFrom_cons values, exponentLength_pos_iff] at hpos
    obtain ⟨he, hdigit⟩ := hpos
    have hnot : ¬(tail.drop (signLength tail)).head?.any Char.isDigit = true := fun hdigit => by
      have := exponentLength_pos_iff.2 ⟨he, hdigit⟩
      omega
    have hblocks' := SubstitutionMode.blocks_next (.inl (isWord_of_isExponentLetter he)) mode
    have hhead := hblocks'.head?_substituteFrom values tail
    have hsame : signLength (substituteFrom values (mode.next e) tail) = signLength tail := by
      simp only [signLength, hhead]
    rw [hsame] at hdigit
    -- without a sign the first digit would stand behind a letter, where no placeholder is
    by_cases hsign : tail.head?.any isSign = true
    · have hone : signLength tail = 1 := if_pos hsign
      rw [hone] at hdigit hnot
      cases tail with
      | nil => cases hsign
      | cons sign tail =>
        rw [hblocks'.substituteFrom_cons values] at hdigit
        rw [List.drop_succ_cons, List.drop_zero] at hdigit hnot
        cases tail with
        | nil => cases hdigit
        | cons letter rest =>
          cases hplaceholder : ((mode.next e).next sign).placeholder? letter rest.head? with
          | none =>
            rw [substituteFrom_cons_of_none values hplaceholder] at hdigit
            exact absurd hdigit hnot
          | some placeholder =>
            rw [substituteFrom_cons_of_some values hplaceholder] at hdigit
            refine ⟨e, sign, letter, rest, placeholder, rfl,
              gainedExponent_of_digit values hblocks he hsign hplaceholder ?_⟩
            obtain ⟨d, more, hliteral, -⟩ :=
              (literalForm (values.lookup placeholder) (rest.head? = some '.')).exists_cons
            rw [hliteral] at hdigit ⊢
            exact hdigit
    · have hzero : signLength tail = 0 := if_neg hsign
      rw [hzero, List.drop_zero] at hdigit hnot
      rw [hhead] at hdigit
      exact absurd hdigit hnot

end

/-! ### What the scanner reads -/

/-- Where the digits of a number are taken away in front, at most one token is left of it. -/
theorem tokensIn_behind_digits {digits tail : List Char} (hdigits : DecimalText digits)
    (htail : EndsNumber tail) {tokens : List Token}
    (h : tokensIn ((digits ++ tail).drop (runLength Char.isDigit (digits ++ tail))) = some tokens) :
    ∃ front tokens', tokens = front ++ tokens' ∧ front.length ≤ 1 ∧ tokensIn tail = some tokens' := by
  cases hdigits with
  | whole hne hall =>
    rw [runLength_append_of_all hall, htail.runLength_eq_zero, Nat.add_zero, List.drop_left] at h
    exact ⟨[], tokens, rfl, Nat.zero_le _, h⟩
  | @fraction digits places hne hall hplaces =>
    have hrun : runLength Char.isDigit (digits ++ ('.' :: places ++ tail)) = digits.length := by
      rw [runLength_append_of_all hall]
      simp [runLength_cons]
    rw [List.append_assoc, hrun, List.drop_left, List.cons_append] at h
    -- the point and the places behind it are left: a mark, or a number of its own
    have hlexeme : lexemeAt '.' (places ++ tail) = (.token (.mark .dot), places.length) ∨
        ∃ value, lexemeAt '.' (places ++ tail) = (numberLexeme value, places.length) := by
      cases places with
      | nil => exact .inl (lexemeAt_point (htail.head?_any fun c hc => .inl (isWord_of_isDigit hc)))
      | cons place places =>
        right
        have hmantissa : mantissaLength ('.' :: (place :: places ++ tail)) =
            (place :: places).length + 1 := by
          have hwhole : runLength Char.isDigit ('.' :: (place :: places ++ tail)) = 0 := by
            simp [runLength_cons]
          simp only [mantissaLength, hwhole, List.drop_zero, fractionLength, if_true]
          rw [runLength_append_of_all hplaces, htail.runLength_eq_zero, List.length_cons]
          split <;> omega
        have hdecimal : decimalLength ('.' :: (place :: places ++ tail)) =
            (place :: places).length + 1 := by
          simp only [decimalLength, hmantissa]
          rw [if_neg (Nat.succ_ne_zero _), List.drop_succ_cons, List.drop_left,
            htail.exponentLength_eq_zero]
        have hnumber : ∃ value, numberAt? ('.' :: (place :: places ++ tail)) =
            some (numberLexeme value, (place :: places).length + 1) := by
          simp only [numberAt?, hexLength_eq_zero (by decide : '.' ≠ '0'), hdecimal]
          rw [if_neg (Nat.lt_irrefl 0), if_pos (Nat.succ_pos _)]
          exact ⟨_, rfl⟩
        obtain ⟨value, hvalue⟩ := hnumber
        exact ⟨value, lexemeAt_number (.inr rfl) hvalue⟩
    have hone {token : Token} (hlexeme : lexemeAt '.' (places ++ tail) = (.token token, places.length)) :
        ∃ front tokens', tokens = front ++ tokens' ∧ front.length ≤ 1 ∧
          tokensIn tail = some tokens' := by
      rw [tokensIn_token hlexeme, List.drop_left] at h
      obtain ⟨tokens', htokens, rfl⟩ := Option.map_eq_some_iff.1 h
      exact ⟨[token], tokens', rfl, le_refl _, htokens⟩
    rcases hlexeme with hdot | ⟨value, hvalue⟩
    · exact hone hdot
    · cases value with
      | none =>
        rw [tokensIn_unreadable hvalue] at h
        cases h
      | some value => exact hone hvalue

/-- A number that gets an exponent is at most two tokens up to where the digits of the exponent end. -/
theorem tokensIn_gained_exponent {c e sign : Char} {rest digits tail : List Char} {n : Nat}
    {lexeme : Lexeme} (hc : c.isDigit = true ∨ c = '.')
    (hnumber : numberAt? (c :: rest) = some (lexeme, n + 1))
    (hmantissa : mantissaLength (c :: rest) = n + 1) (hhead : (rest.drop n).head? = some e)
    (hsecond : (rest.drop n).tail.head? = some sign) (he : isExponentLetter e = true)
    (hsign : isSign sign = true) (hdigits : DecimalText digits) (htail : EndsNumber tail)
    {tokens : List Token}
    (h : tokensIn (c :: (rest.take n ++ e :: sign :: (digits ++ tail))) = some tokens) :
    ∃ front tokens', tokens = front ++ tokens' ∧ front.length ≤ 2 ∧ tokensIn tail = some tokens' := by
  have hpos : 0 < exponentLength (e :: sign :: (digits ++ tail)) := by
    obtain ⟨d, more, rfl, hd⟩ := hdigits.exists_cons
    have hone : signLength (sign :: (d :: more ++ tail)) = 1 := if_pos hsign
    rw [exponentLength_pos_iff, hone]
    exact ⟨he, hd⟩
  have hgained : ∃ value, numberAt? (c :: (rest.take n ++ e :: sign :: (digits ++ tail))) =
      some (numberLexeme value, n + 1 + exponentLength (e :: sign :: (digits ++ tail))) :=
    numberAt?_exponent hnumber hmantissa hhead.symm fun _ _ _ => hsecond.symm
  obtain ⟨value, hvalue⟩ := hgained
  rw [exponentLength_of_sign hsign hpos] at hvalue
  have hlexeme := lexemeAt_number hc hvalue
  have hn : (rest.take n).length = n :=
    List.length_take_of_le (Nat.le_of_succ_le_succ (numberAt?_le hnumber))
  cases value with
  | none =>
    rw [tokensIn_unreadable hlexeme] at h
    cases h
  | some value =>
    rw [tokensIn_token hlexeme] at h
    obtain ⟨tokens', htokens, rfl⟩ := Option.map_eq_some_iff.1 h
    have hdrop : (rest.take n ++ e :: sign :: (digits ++ tail)).drop
        (n + 1 + (runLength Char.isDigit (digits ++ tail) + 2) - 1) =
          (digits ++ tail).drop (runLength Char.isDigit (digits ++ tail)) := by
      have hsum : n + 1 + (runLength Char.isDigit (digits ++ tail) + 2) - 1 =
          (rest.take n).length + (runLength Char.isDigit (digits ++ tail) + 2) := by omega
      rw [hsum, ← List.drop_drop, List.drop_left, List.drop_succ_cons, List.drop_succ_cons]
    rw [hdrop] at htokens
    obtain ⟨front, tokens'', rfl, hfront, hrest⟩ := tokensIn_behind_digits hdigits htail htokens
    exact ⟨.number value :: front, tokens'', rfl, Nat.succ_le_succ hfront, hrest⟩

/-- The letter and the sign of an exponent that comes up are tokens of the source. -/
theorem readAs_exponent {e sign letter : Char} {rest : List Char}
    {followed : List (Token × Option Char)} (he : isExponentLetter e = true)
    (hsign : isSign sign = true) (hletter : letter ∈ placeholderLetters)
    (h : ReadAs (e :: sign :: letter :: rest) followed) :
    ∃ mark followed', followed = (.identifier (String.ofList [e]), some sign) ::
        (.mark mark, some letter) :: followed' ∧
      (mark = .plus ∨ mark = .minus) ∧ ReadAs (letter :: rest) followed' := by
  have hname : isNameStart e = true ∧
      nameToken (String.ofList [e]) = .identifier (String.ofList [e]) := by
    rcases eq_of_isExponentLetter he with rfl | rfl <;> decide
  have hend : ∀ rest, runLength isNamePart (sign :: rest) = 0 ∧
      (rest.takeWhile isMarkTail = [].takeWhile isMarkTail →
        ∃ mark, lexemeAt sign rest = (.token (.mark mark), 0) ∧ (mark = .plus ∨ mark = .minus)) := by
    intro rest
    simp only [isSign, Bool.or_eq_true, decide_eq_true_eq] at hsign
    rcases hsign with rfl | rfl
    · refine ⟨rfl, fun hrest => ⟨.plus, ?_, .inl rfl⟩⟩
      rw [lexemeAt_mark rfl (by simp), markAt, Mark.atStart?_lookahead '+' hrest]
      rfl
    · refine ⟨rfl, fun hrest => ⟨.minus, ?_, .inr rfl⟩⟩
      rw [lexemeAt_mark rfl (by simp), markAt, Mark.atStart?_lookahead '-' hrest]
      rfl
  have hfirst : lexemeAt e (sign :: letter :: rest) =
      (.token (.identifier (String.ofList [e])), 0) := by
    rw [lexemeAt_name hname.1, (hend _).1, List.take_zero, hname.2]
  obtain ⟨followed₁, rfl, hread₁⟩ := h.token_inv hfirst
  obtain ⟨mark, hsecond, hmark⟩ := (hend (letter :: rest)).2 (by
    rw [List.takeWhile_cons_of_neg (by simp [isMarkTail_of_mem_placeholderLetters hletter])]
    rfl)
  obtain ⟨followed₂, rfl, hread₂⟩ := hread₁.token_inv hsecond
  exact ⟨mark, followed₂, rfl, hmark, hread₂⟩

theorem exists_pending {α : Type} {front tokens pending rest : List α}
    (h : front ++ tokens = pending ++ rest) (hlt : front.length < pending.length) :
    ∃ pending', pending' ≠ [] ∧ (∀ token ∈ pending', token ∈ pending) ∧
      tokens = pending' ++ rest := by
  refine ⟨pending.drop front.length, ?_, fun token => List.mem_of_mem_drop, ?_⟩
  · rw [← List.length_pos_iff, List.length_drop]
    omega
  · have hdrop := congrArg (List.drop front.length) h
    rwa [List.drop_left, List.drop_append_of_le_length hlt.le] at hdrop

section

variable (values : PlaceholderValues) {mode : SubstitutionMode}

theorem replaceTokens_of_none {behindDot : Bool} {token : Token} {follower : Option Char}
    (h : tokenPlaceholder? behindDot token = none) (rest : List (Token × Option Char)) :
    replaceTokens values behindDot ((token, follower) :: rest) =
      token :: replaceTokens values (token = .mark .dot) rest := by
  rw [replaceTokens, tokenImage, h]
  rfl

/-- The letter and the sign of an exponent are no placeholders. -/
theorem replaceTokens_exponent {e : Char} {mark : Mark} (he : isExponentLetter e = true)
    (hmark : mark = .plus ∨ mark = .minus) (follower follower' : Option Char)
    (rest : List (Token × Option Char)) :
    replaceTokens values false
        ((.identifier (String.ofList [e]), follower) :: (.mark mark, follower') :: rest) =
      .identifier (String.ofList [e]) :: .mark mark :: replaceTokens values false rest := by
  have hname : tokenPlaceholder? false (.identifier (String.ofList [e])) = none := by
    rcases eq_of_isExponentLetter he with rfl | rfl <;> decide
  have hdot : decide (Token.mark mark = .mark .dot) = false := by
    rcases hmark with rfl | rfl <;> decide
  rw [replaceTokens_of_none values hname, replaceTokens_of_none values rfl, hdot]

/-- The number in front, the letter and the sign belong to an exponent that comes up. -/
theorem isExponentToken_of_exponent (value : Double) {e : Char} {mark : Mark}
    (he : isExponentLetter e = true) (hmark : mark = .plus ∨ mark = .minus) :
    ∀ token ∈ [.number value, .identifier (String.ofList [e]), .mark mark],
      isExponentToken token = true := by
  intro token htoken
  simp only [List.mem_cons, List.not_mem_nil, or_false] at htoken
  rcases htoken with rfl | rfl | rfl
  · rfl
  · rcases eq_of_isExponentLetter he with rfl | rfl <;> decide
  · rcases hmark with rfl | rfl <;> rfl

/-- A placeholder that becomes a number is a token of the source, and a number of the result. -/
theorem exists_replaced_number {letter : Char} {rest : List Char} {placeholder : Placeholder}
    (hletter : Placeholder.ofChar? letter = some placeholder)
    (hpart : ∀ d ∈ rest.head?, isNamePart d = false) (hends : EndsNumber rest)
    (hdigits : DecimalText (literalOf (values.lookup placeholder) false))
    {followed : List (Token × Option Char)} (hread : ReadAs (letter :: rest) followed) :
    ∃ number followed', ReadAs rest followed' ∧
      replaceTokens values false followed =
        .number number :: replaceTokens values false followed' := by
  have hmem := mem_placeholderLetters hletter
  have hlexeme : lexemeAt letter rest = (.token (.identifier (String.ofList [letter])), 0) := by
    rw [lexemeAt_name (isNameStart_of_mem_placeholderLetters hmem), runLength_eq_zero hpart,
      List.take_zero, nameToken_of_mem_placeholderLetters hmem]
  have hplaceholder :
      tokenPlaceholder? false (.identifier (String.ofList [letter])) = some placeholder := by
    simp only [tokenPlaceholder?, String.toList_ofList, Bool.false_eq_true, if_false, hletter]
  obtain ⟨number, hnumber⟩ := exists_tokensIn_decimalText hdigits
  have hliteral : literalTokens (values.lookup placeholder) false = [.number number] := by
    have hnil := hnumber [] (by rintro d ⟨⟩)
    rw [List.append_nil] at hnil
    rw [literalTokens, hnil, tokensIn_nil]
    rfl
  have hpoint : rest.head? ≠ some '.' := fun hpoint => (hends '.' hpoint).2 rfl
  obtain ⟨followed', rfl, hread'⟩ := hread.token_inv hlexeme
  refine ⟨number, followed', hread', ?_⟩
  rw [replaceTokens, tokenImage, hplaceholder, List.drop_zero]
  dsimp only
  rw [decide_eq_false hpoint, hliteral]
  rfl

/-- Only a number gets an exponent. -/
theorem exists_number {c : Char} {rest : List Char} {n : Nat} {token : Token}
    (mode : SubstitutionMode) (h : lexemeAt c rest = (.token token, n))
    (hgain : gainsExponent values mode (c :: rest.take n) (rest.drop n) = true) :
    ∃ value, token = .number value ∧
      numberAt? (c :: rest) = some (.token (.number value), n + 1) ∧ (c.isDigit = true ∨ c = '.') := by
  simp only [gainsExponent, Bool.and_eq_true, decide_eq_true_eq, List.cons_append,
    List.take_append_drop, List.length_cons] at hgain
  have hpos : 0 < decimalLength (c :: rest) := by
    simp only [decimalLength]
    split <;> omega
  have hc : c.isDigit = true ∨ c = '.' := by
    by_contra! hc
    rw [decimalLength_eq_zero (by simpa using hc.1) hc.2] at hpos
    exact absurd hpos (Nat.lt_irrefl 0)
  cases hnumber : numberAt? (c :: rest) with
  | none =>
    simp only [numberAt?, if_pos hpos] at hnumber
    split at hnumber <;> cases hnumber
  | some number =>
    obtain ⟨lexeme, length⟩ := number
    obtain ⟨value, rfl⟩ := numberAt?_numberLexeme hnumber
    obtain ⟨length, rfl⟩ := Nat.exists_eq_add_one.2 (numberAt?_pos hnumber)
    rw [lexemeAt_number hc hnumber] at h
    cases value with
    | none => cases h
    | some value =>
      cases h
      exact ⟨value, rfl, rfl, hc⟩

/-- A text behind a number that begins with a token of an exponent begins with no part of a name: that would be a
dollar sign, with which a name begins. -/
theorem isNamePart_head?_of_isExponentToken {text : List Char} (hends : EndsNumber text) {token : Token}
    {tokens : List Token} (htoken : isExponentToken token = true) (h : tokensIn text = some (token :: tokens)) :
    ∀ d ∈ text.head?, isNamePart d = false := by
  intro d hd
  rw [← Bool.not_eq_true]
  intro hpart
  obtain rfl := eq_dollar hpart (hends d hd).1
  obtain ⟨tail, rfl⟩ := List.head?_eq_some_iff.1 hd
  rw [isExponentToken_dollar h] at htoken
  cases htoken

/-- Where a number gets an exponent, tokens of it are missing in front of what becomes of the text behind
the exponent. -/
theorem exists_swallowed {c : Char} {rest : List Char} {n : Nat} {value : Double}
    {followed : List (Token × Option Char)} {pending : List Token}
    (hc : c.isDigit = true ∨ c = '.')
    (hnumber : numberAt? (c :: rest) = some (.token (.number value), n + 1))
    (hgain : gainsExponent values mode (c :: rest.take n) (rest.drop n) = true)
    (hread : ReadAs (rest.drop n) followed)
    (hpending : ∀ token ∈ pending, isExponentToken token = true)
    (h : tokensIn (substituteFrom values mode (c :: rest)) =
      some (pending ++ .number value :: replaceTokens values false followed)) :
    ∃ mode' rest' followed' pending', rest'.length < rest.length ∧ ReadAs rest' followed' ∧
      pending' ≠ [] ∧ (∀ token ∈ pending', isExponentToken token = true) ∧
      tokensIn (substituteFrom values mode' rest') =
        some (pending' ++ replaceTokens values false followed') := by
  have hlast := numberAt?_getLast hnumber
  have htext := rewritten_of_untouched values (untouched_number mode (rest.drop n).head? hnumber)
  rw [List.take_succ_cons] at hlast htext
  have hblocks := blocks_after mode (List.cons_ne_nil c _) hlast
  have hn : n ≤ rest.length := Nat.le_of_succ_le_succ (numberAt?_le hnumber)
  simp only [gainsExponent, Bool.and_eq_true, decide_eq_true_eq, List.cons_append,
    List.take_append_drop, List.length_cons, List.length_take_of_le hn] at hgain
  obtain ⟨hmantissa, hpos⟩ := hgain
  obtain ⟨-, -, hnone⟩ := exponentLength_of_mantissaLength hnumber hmantissa
  rw [List.drop_succ_cons] at hnone
  obtain ⟨e, sign, letter, rest', placeholder, hdrop, hgained⟩ :=
    exists_gainedExponent values hblocks hnone hpos
  have he := hgained.exponent
  have hends := hgained.ends
  have hbecomes := hgained.becomes
  generalize (((mode.after (c :: rest.take n)).next e).next sign).next letter = mode' at hbecomes
  have hhead := head?_substituteFrom_number values mode' hends
  have hends' : EndsNumber (substituteFrom values mode' rest') := by
    rwa [EndsNumber, hhead]
  rw [substituteFrom_split values mode n, htext, hdrop, hbecomes, List.cons_append] at h
  obtain ⟨front, tokens', heq, hfront, htokens'⟩ := tokensIn_gained_exponent hc hnumber hmantissa
    (by rw [hdrop]; rfl) (by rw [hdrop]; rfl) he hgained.signed hgained.digits hends' h
  rw [hdrop] at hread
  obtain ⟨mark, followed', rfl, hmark, hread'⟩ :=
    readAs_exponent he hgained.signed (mem_placeholderLetters hgained.ofChar) hread
  rw [replaceTokens_exponent values he hmark] at heq
  have hall : ∀ token ∈ pending ++ [.number value, .identifier (String.ofList [e]), .mark mark],
      isExponentToken token = true := fun token htoken =>
    (List.mem_append.1 htoken).elim (hpending token) (isExponentToken_of_exponent value he hmark token)
  -- at most two tokens come where these three and the digits should
  have hthree : front ++ tokens' =
      (pending ++ [.number value, .identifier (String.ofList [e]), .mark mark]) ++
        replaceTokens values false followed' := by
    rw [← heq, List.append_assoc]
    rfl
  have hpart : ∀ d ∈ rest'.head?, isNamePart d = false := by
    rw [← hhead]
    obtain ⟨pending', hne, hsub, rfl⟩ := exists_pending hthree (by simp; omega)
    obtain ⟨token, pending', rfl⟩ := List.exists_cons_of_ne_nil hne
    exact isNamePart_head?_of_isExponentToken hends' (hall token (hsub token (.head _))) htokens'
  obtain ⟨number, followed'', hread'', hreplaced⟩ :=
    exists_replaced_number values hgained.ofChar hpart hends hgained.digits hread'
  rw [hreplaced, List.append_cons] at hthree
  obtain ⟨pending', hne, hsub, rfl⟩ := exists_pending hthree (by simp; omega)
  refine ⟨_, rest', followed'', pending', ?_, hread'', hne, fun token htoken => ?_, htokens'⟩
  · have hlength := congrArg List.length hdrop
    simp only [List.length_drop, List.length_cons] at hlength
    omega
  · rcases List.mem_append.1 (hsub token htoken) with hmem | hmem
    · exact hall token hmem
    · rw [List.mem_singleton.1 hmem]
      rfl

end

end SequenceNotation.Sequence
