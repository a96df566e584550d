import SequenceNotation.Proofs.Sequence.PlaceholderTokens

/-!
# Tokens that are touched

Whether the substitution has touched a token shows in the first token of what becomes of the text.  The
first token is looked for behind tokens of an exponent, which a number further in front may have
swallowed.
-/

namespace SequenceNotation.Sequence

open SequenceNotation.Number SequenceNotation.Script SequenceNotation.Text

/-! ### The first token of a text -/

theorem nameToken_eq_identifier {text name : String} (h : nameToken text = .identifier name) :
    name = text := by
  unfold nameToken at h
  split at h
  · cases h
  · cases h
    rfl

section

variable {c : Char} {rest : List Char} {token : Token} {tokens : List Token}

theorem tokensIn_name_start (hc : isNameStart c = true)
    (h : tokensIn (c :: rest) = some (token :: tokens)) :
    token = nameToken (String.ofList (c :: rest.takeWhile isNamePart)) := by
  rw [tokensIn_token (lexemeAt_name hc rest), take_runLength] at h
  obtain ⟨tail, -, heq⟩ := Option.map_eq_some_iff.1 h
  exact (List.cons.inj heq).1.symm

theorem tokensIn_quote_start (hc : c = '"' ∨ c = '\'')
    (h : tokensIn (c :: rest) = some (token :: tokens)) :
    ∃ body tail, StringBody c body ∧ rest = body ++ c :: tail ∧
      token = .string (String.ofList (unescape body)) := by
  cases hrest : stringTail c rest with
  | mk closed n =>
    cases closed with
    | false =>
      rw [tokensIn_unclosed hc (by rw [hrest])] at h
      cases h
    | true =>
      obtain ⟨body, tail, hbody, rfl, -⟩ := exists_stringBody hrest
      rw [tokensIn_string hc hbody] at h
      obtain ⟨tail', -, heq⟩ := Option.map_eq_some_iff.1 h
      exact ⟨body, tail, hbody, rfl, (List.cons.inj heq).1.symm⟩

theorem tokensIn_digit_start (hc : c.isDigit = true)
    (h : tokensIn (c :: rest) = some (token :: tokens)) : ∃ value, token = .number value := by
  cases hnumber : numberAt? (c :: rest) with
  | none =>
    have := isDigit_eq_false rest hnumber
    rw [hc] at this
    cases this
  | some number =>
    obtain ⟨lexeme, n⟩ := number
    have hlexeme := lexemeAt_number (.inl hc) hnumber
    obtain ⟨value, rfl⟩ := numberAt?_numberLexeme hnumber
    cases value with
    | none =>
      rw [tokensIn_unreadable hlexeme] at h
      cases h
    | some value =>
      rw [tokensIn_token hlexeme] at h
      obtain ⟨tail, -, heq⟩ := Option.map_eq_some_iff.1 h
      exact ⟨value, (List.cons.inj heq).1.symm⟩

theorem tokensIn_paren_start (h : tokensIn ('(' :: rest) = some (token :: tokens)) :
    token = .mark .openParen := by
  rw [tokensIn_openParen] at h
  obtain ⟨tail, -, heq⟩ := Option.map_eq_some_iff.1 h
  exact (List.cons.inj heq).1.symm

end

/-! ### Identifiers -/

section

variable (values : PlaceholderValues) {mode : SubstitutionMode} {follower : Option Char}

/-- A text begins as before, or with a literal. -/
theorem exists_rewritten_cons (mode : SubstitutionMode) (follower : Option Char) (c : Char)
    (text : List Char) :
    ∃ d more, rewritten values mode follower (c :: text) = d :: more ∧
      (d = c ∨ isLiteralHead d = true) := by
  rw [rewritten]
  cases hplaceholder : mode.placeholder? c (text.head?.or follower) with
  | none => exact ⟨c, _, by rw [replacement_of_none values hplaceholder]; rfl, .inl rfl⟩
  | some placeholder =>
    obtain ⟨d, more, heq, hd⟩ := exists_replacement_cons values hplaceholder
    exact ⟨d, more ++ rewritten values (mode.next c) follower text, by rw [heq]; rfl, .inr hd⟩

/-- A text that is still there in front has not been touched. -/
theorem untouched_of_append {text tail tail' : List Char} (htail : tail'.head? ≠ some 'n')
    (h : rewritten values mode follower text ++ tail = text ++ tail') :
    untouched mode follower text = true := by
  induction text generalizing mode with
  | nil => rfl
  | cons c text ih =>
    rw [rewritten] at h
    rw [untouched]
    cases hplaceholder : mode.placeholder? c (text.head?.or follower) with
    | none =>
      rw [replacement_of_none values hplaceholder] at h
      rw [ih (List.cons.inj h).2]
      rfl
    | some placeholder =>
      have hfollower := (SubstitutionMode.placeholder?_eq_some hplaceholder).2.1
      obtain ⟨d, more, heq, -⟩ := exists_replacement_cons values hplaceholder
      rw [heq, List.cons_append, List.cons_append, List.cons_append] at h
      obtain ⟨rfl, hmore⟩ := List.cons.inj h
      -- the letter is the first one of the name of infinity, and the second one of it follows
      obtain ⟨rfl, rfl⟩ := replacement_letter values hplaceholder heq
      cases text with
      | nil =>
        rw [← show _ = tail' from hmore] at htail
        exact absurd rfl htail
      | cons d text =>
        obtain rfl : 'n' = d := (List.cons.inj hmore).1
        exact absurd (hfollower 'n' rfl) (by decide)

/-- An identifier that is still the first token has not changed. -/
theorem untouched_of_identifier {text : List Char} {name : String} {tail : List Char}
    {tokens : List Token} (hname : name.toList = text) (hstart : text.head?.any isNameStart = true)
    (h : tokensIn (rewritten values mode follower text ++ tail) = some (.identifier name :: tokens)) :
    untouched mode follower text = true := by
  cases text with
  | nil => rfl
  | cons c text =>
    obtain ⟨d, more, heq, hd⟩ := exists_rewritten_cons values mode follower c text
    rw [heq, List.cons_append] at h
    have hnameStart : isNameStart d = true := by
      rcases hd with rfl | hliteral
      · exact hstart
      simp only [isLiteralHead, Bool.or_eq_true, decide_eq_true_eq] at hliteral
      -- Of what a literal begins with, only the names of numbers that are not finite begin a name.
      rcases hliteral with (((hdigit | rfl) | rfl) | rfl) | rfl
      · obtain ⟨value, hvalue⟩ := tokensIn_digit_start hdigit h
        cases hvalue
      · rfl
      · rfl
      · cases tokensIn_paren_start h
      · obtain ⟨_, _, -, -, hstring⟩ := tokensIn_quote_start (.inl rfl) h
        cases hstring
    have htoken := nameToken_eq_identifier (tokensIn_name_start hnameStart h).symm
    rw [htoken, String.toList_ofList] at hname
    -- The name goes up to where no part of a name follows, so what was written is the text itself.
    have hend : ((more ++ tail).dropWhile isNamePart).head? ≠ some 'n' := by
      intro hn
      have := List.head?_dropWhile_not isNamePart (more ++ tail)
      rw [hn] at this
      exact absurd this (by decide)
    have hfront : rewritten values mode follower (c :: text) ++ tail =
        c :: text ++ (more ++ tail).dropWhile isNamePart := by
      rw [heq, ← hname, List.cons_append, List.cons_append, List.takeWhile_append_dropWhile]
    exact untouched_of_append values hend hfront

end

/-! ### Tokens that an exponent can swallow -/

/-- Whether a token can be the number in front of an exponent or a piece of the exponent. -/
def isExponentToken : Token → Bool
  | .number _ => true
  | .identifier name => name = "e" || name = "E"
  | .mark mark => mark = .plus || mark = .minus
  | _ => false

theorem eq_of_isExponentToken_name {text : List Char}
    (h : isExponentToken (nameToken (String.ofList text)) = true) : text = ['e'] ∨ text = ['E'] := by
  unfold nameToken at h
  split at h
  · cases h
  · simp only [isExponentToken, Bool.or_eq_true, decide_eq_true_eq] at h
    rcases h with h | h
    · exact .inl (by simpa using congrArg String.toList h)
    · exact .inr (by simpa using congrArg String.toList h)

/-- A literal in front can only be a number if the first token belongs to an exponent. -/
theorem decimalText_of_isExponentToken {memberFollows : Bool} {literal tail : List Char}
    (hform : LiteralForm memberFollows literal) {token : Token} {tokens : List Token}
    (h : tokensIn (literal ++ tail) = some (token :: tokens)) (htoken : isExponentToken token = true) :
    memberFollows = false ∧ DecimalText literal := by
  cases hform with
  | nan =>
    have := tokensIn_name_start (c := 'N') rfl h
    rw [this] at htoken
    rcases eq_of_isExponentToken_name htoken with h | h <;> cases h
  | infinity =>
    have := tokensIn_name_start (c := 'I') rfl h
    rw [this] at htoken
    rcases eq_of_isExponentToken_name htoken with h | h <;> cases h
  | decimal hmember hdigits => exact ⟨hmember, hdigits⟩
  | enclosed =>
    rw [tokensIn_paren_start h] at htoken
    cases htoken
  | quoted text =>
    obtain ⟨_, _, -, -, rfl⟩ := tokensIn_quote_start (.inl rfl) h
    cases htoken

theorem isExponentToken_dollar {rest : List Char} {token : Token} {tokens : List Token}
    (h : tokensIn ('$' :: rest) = some (token :: tokens)) : isExponentToken token = false := by
  rw [tokensIn_name_start rfl h, ← Bool.not_eq_true]
  intro hname
  rcases eq_of_isExponentToken_name hname with h | h <;> cases h

/-- The only character of names that belongs to no word. -/
theorem eq_dollar {c : Char} (hpart : isNamePart c = true) (hword : isWord c = false) : c = '$' := by
  by_contra hdollar
  have halphanum : c.isAlphanum = true ∨ c = '_' := by
    simp only [isNamePart, isNameStart, Bool.or_eq_true, decide_eq_true_eq] at hpart
    unfold Char.isAlphanum
    rcases hpart with ((halpha | rfl) | hc) | hdigit
    · simp [halpha]
    · exact .inr rfl
    · exact absurd hc hdollar
    · simp [hdigit]
  rcases halphanum with halphanum | rfl
  · rw [isWord_of_isAlphanum halphanum] at hword
    cases hword
  · exact absurd hword (by decide)

section

variable (values : PlaceholderValues) {mode : SubstitutionMode} {follower : Option Char}

/-- A name that stays is the `e` of an exponent only if it has no other characters. -/
theorem eq_nil_of_isExponentToken {c : Char} {text tail : List Char} (hstart : isNameStart c = true)
    (hparts : ∀ d ∈ text, isNamePart d = true) {token : Token} {tokens : List Token}
    (htoken : isExponentToken token = true)
    (h : tokensIn (c :: (rewritten values (mode.next c) follower text ++ tail)) = some (token :: tokens)) :
    text = [] := by
  rw [tokensIn_name_start hstart h] at htoken
  have hend : (rewritten values (mode.next c) follower text ++ tail).takeWhile isNamePart = [] ∧
      isWord c = true := by
    rcases eq_of_isExponentToken_name htoken with h | h <;>
      obtain ⟨rfl, hnil⟩ := List.cons.inj h <;> exact ⟨hnil, by decide⟩
  cases text with
  | nil => rfl
  | cons d text =>
    -- behind a letter nothing is replaced, so the name goes on with its second character
    have hblocks := SubstitutionMode.blocks_next (.inl hend.2) mode
    have hd := hend.1
    rw [rewritten, replacement_of_none values (hblocks d _), List.singleton_append,
      List.cons_append, List.takeWhile_cons_of_pos (hparts d (.head _))] at hd
    cases hd

/-- Where a letter in front of a dollar sign is replaced by digits, a name that begins with the sign follows. -/
theorem not_pending_of_replaced {c : Char} {text tail : List Char} {name : String}
    (hname : name.toList = c :: '$' :: text) {placeholder : Placeholder}
    (hplaceholder : mode.placeholder? c (('$' :: text).head?.or follower) = some placeholder)
    {token : Token} {pending tokens : List Token} (htoken : isExponentToken token = true)
    (hpending : ∀ token ∈ pending, isExponentToken token = true)
    (h : tokensIn (rewritten values mode follower (c :: '$' :: text) ++ tail) =
      some (token :: (pending ++ .identifier name :: tokens))) : False := by
  obtain ⟨hletter, -⟩ := SubstitutionMode.placeholder?_eq_some hplaceholder
  rw [rewritten, replacement_of_some values hplaceholder, List.append_assoc] at h
  obtain ⟨-, hdigits⟩ := decimalText_of_isExponentToken (literalForm _ _) h htoken
  obtain ⟨value, hvalue⟩ := exists_tokensIn_decimalText hdigits
  have hnone : (mode.next c).placeholder? '$' (text.head?.or follower) = none :=
    placeholder?_of_not_mem (by decide) _ _
  rw [rewritten, replacement_of_none values hnone, List.singleton_append, List.cons_append,
    hvalue _ (by rintro x ⟨⟩; decide)] at h
  obtain ⟨rest, hrest, heq⟩ := Option.map_eq_some_iff.1 h
  obtain ⟨-, rfl⟩ := List.cons.inj heq
  cases pending with
  | nil =>
    have hdollar := nameToken_eq_identifier (tokensIn_name_start rfl hrest).symm
    rw [hdollar, String.toList_ofList] at hname
    obtain ⟨rfl, -⟩ := List.cons.inj hname
    exact absurd (mem_placeholderLetters hletter) (by decide)
  | cons token' pending =>
    have hdollar := isExponentToken_dollar hrest
    rw [hpending token' (.head _)] at hdollar
    cases hdollar

/-- An identifier that changes leaves no place in front of it for tokens of an exponent. -/
theorem untouched_of_pending {c : Char} {text : List Char} {name : String} {tail : List Char}
    (hname : name.toList = c :: text) (hstart : isNameStart c = true)
    (hparts : ∀ d ∈ text, isNamePart d = true)
    (hother : tokenPlaceholder? false (.identifier name) = none) {pending : List Token}
    (hne : pending ≠ []) (hpending : ∀ token ∈ pending, isExponentToken token = true)
    {tokens : List Token}
    (h : tokensIn (rewritten values mode follower (c :: text) ++ tail) =
      some (pending ++ .identifier name :: tokens)) :
    untouched mode follower (c :: text) = true := by
  obtain ⟨token, pending, rfl⟩ := List.exists_cons_of_ne_nil hne
  obtain ⟨htoken, hpending⟩ := List.forall_mem_cons.1 hpending
  rw [untouched]
  cases hplaceholder : mode.placeholder? c (text.head?.or follower) with
  | none =>
    rw [rewritten, replacement_of_none values hplaceholder, List.singleton_append] at h
    obtain rfl := eq_nil_of_isExponentToken values hstart hparts htoken h
    rfl
  | some placeholder =>
    exfalso
    obtain ⟨hletter, hfollower, -⟩ := SubstitutionMode.placeholder?_eq_some hplaceholder
    cases text with
    | nil =>
      rw [tokenPlaceholder?, hname] at hother
      exact absurd hother (by simp [hletter])
    | cons d text =>
      -- of the characters of a name only the dollar sign may follow a placeholder
      obtain rfl : d = '$' := eq_dollar (hparts d (.head _)) (hfollower d rfl)
      exact not_pending_of_replaced values hname hplaceholder htoken hpending h

end

/-! ### String literals -/

/-- A text that begins with an `n` is not written with a line feed in front. -/
theorem head?_of_unescape {quote : Char} {body : List Char} (hbody : StringBody quote body)
    {text : List Char} (h : unescape body = 'n' :: text) : body.head? = some 'n' := by
  cases hbody with
  | nil => cases h
  | plain hc hback =>
    rw [unescape_cons hback] at h
    rw [(List.cons.inj h).1]
    rfl
  | @escape c =>
    rw [unescape_backslash] at h
    have hc := (List.cons.inj h).1
    unfold escapeMeaning at hc
    split_ifs at hc <;> simp_all

/-- No literal begins with a character that means the same behind a backslash as the letter it stands
for, except with the letter itself. -/
theorem eq_of_escapeMeaning {letter d : Char} (hletter : letter ∈ placeholderLetters)
    (hd : isLiteralHead d = true) (h : escapeMeaning d = escapeMeaning letter) : d = letter := by
  have hall : ∀ letter ∈ placeholderLetters,
      (∀ k : Fin 10, escapeMeaning (Char.ofNat (48 + k)) ≠ escapeMeaning letter) ∧
        ['N', 'I', '(', '"'].all (fun d => escapeMeaning d = escapeMeaning letter → d = letter) =
          true :=
    forall_of_all (by decide)
  simp only [isLiteralHead, Bool.or_eq_true, decide_eq_true_eq] at hd
  rcases hd with (((hdigit | rfl) | rfl) | rfl) | rfl
  · obtain ⟨k, rfl⟩ := exists_digit hdigit
    exact absurd h ((hall letter hletter).1 k)
  all_goals exact forall_of_all (hall letter hletter).2 _ (by decide) h

section

variable (values : PlaceholderValues) {mode : SubstitutionMode} {follower : Option Char}

/-- Between quotes, a letter does not become a text that begins with the letter and means the same. -/
theorem not_same_body {quote letter : Char} (hquote : quote ≠ 'n') {placeholder : Placeholder}
    {body body' more tail : List Char} (hbody : StringBody quote body)
    (hbody' : StringBody quote body')
    (hplaceholder : mode.placeholder? letter ((body ++ [quote]).head?.or follower) = some placeholder)
    (hliteral : replacement values mode letter ((body ++ [quote]).head?.or follower) =
      letter :: more)
    {rest : List Char} (heq : more ++ rest = body' ++ quote :: tail)
    (hsame : unescape body' = unescape body) : False := by
  have hfollower := (SubstitutionMode.placeholder?_eq_some hplaceholder).2.1
  obtain ⟨rfl, rfl⟩ := replacement_letter values hplaceholder hliteral
  have hhead : ∃ text, unescape body' = 'n' :: text := by
    cases hbody' with
    | nil => exact absurd (List.cons.inj heq).1.symm hquote
    | plain hc hback =>
      rw [unescape_cons hback, ← (List.cons.inj heq).1]
      exact ⟨_, rfl⟩
    | escape => exact absurd (List.cons.inj heq).1 (by decide)
  obtain ⟨text, htext⟩ := hhead
  have hnext := head?_of_unescape hbody (hsame.symm.trans htext)
  rw [List.head?_append, hnext] at hfollower
  exact absurd (hfollower 'n' rfl) (by decide)

/-- A plain letter is not replaced in a text that means the same: it would come first in its own literal. -/
theorem not_replaced_of_plain {quote c : Char} (hquote : quote ≠ 'n') {placeholder : Placeholder}
    {body body' rest tail : List Char} (hback : c ≠ '\\') (hbody : StringBody quote body)
    (hbody' : StringBody quote body')
    (hplaceholder : mode.placeholder? c ((body ++ [quote]).head?.or follower) = some placeholder)
    (heq : replacement values mode c ((body ++ [quote]).head?.or follower) ++ rest = body' ++ quote :: tail)
    (hsame : unescape body' = unescape (c :: body)) : False := by
  obtain ⟨d, more, hliteral, hd⟩ := exists_replacement_cons values hplaceholder
  rw [hliteral] at heq
  rw [unescape_cons hback] at hsame
  cases hbody' with
  | nil => cases hsame
  | plain _ hback' hbody' =>
    rw [unescape_cons hback'] at hsame
    obtain ⟨rfl, hrest⟩ := List.cons.inj heq
    obtain ⟨rfl, hbodies⟩ := List.cons.inj hsame
    exact not_same_body values hquote hbody hbody' hplaceholder hliteral hrest hbodies
  | escape =>
    obtain ⟨rfl, -⟩ := List.cons.inj heq
    exact absurd hd (by decide)

/-- Behind a backslash neither: the first character of its literal would have to mean the same there. -/
theorem not_replaced_of_escaped {quote c d : Char} (hquote : quote ≠ 'n') {placeholder : Placeholder}
    {body body' rest tail : List Char} (hbody : StringBody quote body) (hbody' : StringBody quote body')
    (hplaceholder : mode.placeholder? c ((body ++ [quote]).head?.or follower) = some placeholder)
    (heq : replacement values mode c ((body ++ [quote]).head?.or follower) ++ rest = d :: (body' ++ quote :: tail))
    (hmeaning : escapeMeaning d = escapeMeaning c) (hsame : unescape body' = unescape body) : False := by
  obtain ⟨hletter, -⟩ := SubstitutionMode.placeholder?_eq_some hplaceholder
  obtain ⟨d', more, hliteral, hhead⟩ := exists_replacement_cons values hplaceholder
  rw [hliteral] at heq
  obtain ⟨rfl, hrest⟩ := List.cons.inj heq
  obtain rfl := eq_of_escapeMeaning (mem_placeholderLetters hletter) hhead hmeaning
  exact not_same_body values hquote hbody hbody' hplaceholder hliteral hrest hsame

/-- A string literal that still means the same has not changed. -/
theorem untouched_of_string {quote : Char} (hquote : quote = '"' ∨ quote = '\'')
    {body body' tail tail' : List Char} (hbody : StringBody quote body)
    (hbody' : StringBody quote body')
    (heq : rewritten values mode follower (body ++ [quote]) ++ tail = body' ++ quote :: tail')
    (hsame : unescape body' = unescape body) :
    untouched mode follower (body ++ [quote]) = true := by
  have hback : quote ≠ '\\' := by rcases hquote with rfl | rfl <;> decide
  have hn : quote ≠ 'n' := by rcases hquote with rfl | rfl <;> decide
  induction hbody generalizing mode body' with
  | nil =>
    refine untouched_of_not_mem mode follower fun c hc => ?_
    rw [List.mem_singleton.1 hc]
    rcases hquote with rfl | rfl <;> decide
  | @plain c body hc hcback hbody ih =>
    rw [List.cons_append, rewritten] at heq
    rw [List.cons_append, untouched]
    cases hplaceholder : mode.placeholder? c ((body ++ [quote]).head?.or follower) with
    | none =>
      rw [replacement_of_none values hplaceholder, List.singleton_append] at heq
      rw [unescape_cons hcback] at hsame
      cases hbody' with
      | nil => exact absurd (List.cons.inj heq).1 hc
      | plain hc' hcback' hbody' =>
        rw [unescape_cons hcback'] at hsame
        rw [ih hbody' (List.cons.inj heq).2 (List.cons.inj hsame).2]
        rfl
      | escape => exact absurd (List.cons.inj heq).1 hcback
    | some placeholder =>
      rw [List.append_assoc] at heq
      exact (not_replaced_of_plain values hn hcback hbody hbody' hplaceholder heq hsame).elim
  | @escape c body hc hbody ih =>
    -- the backslash stays, so the other text has an escaped character here too
    have hnone : mode.placeholder? '\\' ((c :: (body ++ [quote])).head?.or follower) = none :=
      placeholder?_of_not_mem (by decide) mode _
    rw [List.cons_append, List.cons_append, rewritten, replacement_of_none values hnone,
      List.singleton_append, rewritten] at heq
    rw [List.cons_append, List.cons_append, untouched, hnone, untouched]
    rw [unescape_backslash] at hsame
    cases hbody' with
    | nil => exact absurd (List.cons.inj heq).1.symm hback
    | plain hc' hcback' => exact absurd (List.cons.inj heq).1.symm hcback'
    | @escape d body' hd hbody' =>
      rw [unescape_backslash] at hsame
      obtain ⟨hmeaning, hbodies⟩ := List.cons.inj hsame
      replace heq : _ ++ tail = (d :: body') ++ quote :: tail' := (List.cons.inj heq).2
      cases hplaceholder :
          (mode.next '\\').placeholder? c ((body ++ [quote]).head?.or follower) with
      | none =>
        rw [replacement_of_none values hplaceholder, List.singleton_append] at heq
        rw [ih hbody' (List.cons.inj heq).2 hbodies]
        rfl
      | some placeholder =>
        rw [List.append_assoc] at heq
        exact (not_replaced_of_escaped values hn hbody hbody' hplaceholder heq hmeaning hbodies).elim

end

/-! ### Every token as it should be -/

theorem keyword_chars {text : List Char} {word : Keyword}
    (h : Keyword.ofSpelling? (String.ofList text) = some word) :
    1 < text.length ∧ ∀ c ∈ text, isWord c = true := by
  have hall : ∀ entry ∈ Keyword.table,
      1 < entry.2.1.toList.length ∧ entry.2.1.toList.all isWord = true := by decide
  obtain ⟨entry, hentry, hname, -⟩ := Keyword.exists_of_ofSpelling? h
  have htext := congrArg String.toList hname
  rw [String.toList_ofList] at htext
  rw [← htext]
  exact (hall entry hentry).imp_right List.all_eq_true.1

theorem mark_chars {text : List Char} {mark : Mark} {n : Nat}
    (h : Mark.atStart? text = some (mark, n)) :
    0 < n ∧ ∀ c ∈ text.take n, c ∉ placeholderLetters := by
  have hall : ∀ entry ∈ Mark.table, 0 < entry.2.1.toList.length ∧
      entry.2.1.toList.all (· ∉ placeholderLetters) = true := by decide
  obtain ⟨entry, hentry, -, rfl, tail, rfl⟩ := Mark.exists_of_atStart? h
  rw [List.take_left]
  exact (hall entry hentry).imp_right forall_of_all

/-- The text of a number stays. -/
theorem untouched_number (mode : SubstitutionMode) (follower : Option Char) {text : List Char}
    {lexeme : Lexeme} {n : Nat} (h : numberAt? text = some (lexeme, n)) :
    untouched mode follower (text.take n) = true := by
  rcases numberAt?_chars h with hdecimal | ⟨hlength, hall⟩
  · have hletters : ∀ c ∈ placeholderLetters, isDecimalPart c = false := forall_of_all (by decide)
    refine untouched_of_not_mem mode follower fun c hc hmem => ?_
    have := hletters c hmem
    rw [hdecimal.all c hc] at this
    cases this
  · match text.take n, hlength, hall with
    | c :: d :: rest, _, hall =>
      exact untouched_word mode follower fun x hx => isWord_of_isAlphanum (hall x hx)

section

variable (values : PlaceholderValues) (mode : SubstitutionMode) {c : Char} {rest : List Char} {n : Nat}

/-- A placeholder that stays is an identifier of one letter in the result. -/
theorem placeholder?_of_tokens {name : String} {placeholder : Placeholder}
    (h : lexemeAt c rest = (.token (.identifier name), n)) (hname : name.toList = [c])
    (hletter : Placeholder.ofChar? c = some placeholder) {pending : List Token}
    (hpending : ∀ token ∈ pending, isExponentToken token = true) {memberFollows : Bool}
    {tokens : List Token}
    (htokens : tokensIn (substituteFrom values mode (c :: rest)) = some (pending ++
      (literalTokens (values.lookup placeholder) memberFollows ++ tokens))) :
    mode.placeholder? c rest.head? = some placeholder := by
  cases hplaceholder : mode.placeholder? c rest.head? with
  | some placeholder' =>
    have hletter' := (SubstitutionMode.placeholder?_eq_some hplaceholder).1
    rw [hletter] at hletter'
    rw [hletter']
  | none =>
    exfalso
    have hmem := mem_placeholderLetters hletter
    have hall : ∀ letter ∈ placeholderLetters,
        isExponentToken (.identifier (String.ofList [letter])) = false := forall_of_all (by decide)
    have hother := hall c hmem
    obtain ⟨-, -, hpart⟩ := lexemeAt_letter h hname
    have hend : (substituteFrom values (mode.next c) rest).takeWhile isNamePart = [] := by
      have hblocks := SubstitutionMode.blocks_next (.inl (isWord_of_mem_placeholderLetters hmem)) mode
      rw [← take_runLength, runLength_eq_zero, List.take_zero]
      rwa [hblocks.head?_substituteFrom values]
    rw [substituteFrom_cons_of_none values hplaceholder] at htokens
    have hfirst {token : Token} {tokens : List Token}
        (h : tokensIn (c :: substituteFrom values (mode.next c) rest) = some (token :: tokens)) :
        token = .identifier (String.ofList [c]) := by
      rw [tokensIn_name_start (isNameStart_of_mem_placeholderLetters hmem) h, hend,
        nameToken_of_mem_placeholderLetters hmem]
    -- the letter stays and is neither pending nor the first token of the literal it should become
    cases pending with
    | cons token pending =>
      have hexponent := hpending token (.head _)
      rw [hfirst htokens, hother] at hexponent
      cases hexponent
    | nil =>
      have hform := (exists_literalTokens (values.lookup placeholder) memberFollows).1
      generalize literalTokens (values.lookup placeholder) memberFollows = image at hform htokens
      generalize literalOf (values.lookup placeholder) memberFollows = literal at hform
      cases hform with
      | name hname' =>
        have hsame := congrArg String.toList (Token.identifier.inj (hfirst htokens))
        rw [String.toList_ofList] at hsame
        rcases hname' with rfl | rfl <;> cases hsame
      | decimal => cases hfirst htokens
      | enclosed => cases hfirst htokens
      | quoted => cases hfirst htokens

theorem untouched_identifier {behindDot : Bool} {name : String}
    (h : lexemeAt c rest = (.token (.identifier name), n)) {pending : List Token}
    (hpending : ∀ token ∈ pending, isExponentToken token = true)
    (hdot : pending ≠ [] → behindDot = false) {tokens : List Token}
    (htokens : tokensIn (substituteFrom values mode (c :: rest)) = some (pending ++
      (tokenImage values behindDot (.identifier name) (rest.drop n).head? ++ tokens))) :
    untouched mode (rest.drop n).head? (c :: rest.take n) =
      (tokenPlaceholder? behindDot (.identifier name)).isNone := by
  cases hplaceholder : tokenPlaceholder? behindDot (.identifier name) with
  | none =>
    obtain ⟨hstart, hname, hrun⟩ := lexemeAt_identifier h
    have hparts : ∀ d ∈ rest.take n, isNamePart d = true := by
      rw [hrun, take_runLength]
      exact fun d hd => List.all_eq_true.1 List.all_takeWhile d hd
    simp only [tokenImage, hplaceholder] at htokens
    rw [substituteFrom_split values mode n] at htokens
    by_cases hne : pending = []
    · subst hne
      exact untouched_of_identifier values hname hstart htokens
    · obtain rfl := hdot hne
      exact untouched_of_pending values hname hstart hparts hplaceholder hne hpending htokens
  | some placeholder =>
    obtain ⟨_, letter, heq, hname, -, hletter⟩ := tokenPlaceholder?_eq_some hplaceholder
    cases heq
    obtain ⟨rfl, rfl, hpart⟩ := lexemeAt_letter h hname
    simp only [tokenImage, hplaceholder] at htokens
    have hreplaced := placeholder?_of_tokens values mode h hname hletter hpending htokens
    rw [List.drop_zero, List.take_zero, untouched, List.head?_nil, Option.none_or, hreplaced]
    rfl

theorem untouched_string {body tail : List Char} (hc : c = '"' ∨ c = '\'')
    (hbody : StringBody c body) {pending : List Token}
    (hpending : ∀ token ∈ pending, isExponentToken token = true) {tokens : List Token}
    (htokens : tokensIn (substituteFrom values mode (c :: (body ++ c :: tail))) =
      some (pending ++ .string (String.ofList (unescape body)) :: tokens)) :
    untouched mode tail.head? (c :: (body ++ [c])) = true := by
  have hnone : mode.placeholder? c ((body ++ [c]).head?.or tail.head?) = none := by
    refine placeholder?_of_not_mem ?_ mode _
    rcases hc with rfl | rfl <;> decide
  have hsplit : c :: (body ++ c :: tail) = (c :: (body ++ [c])) ++ tail := by simp
  rw [hsplit, substituteFrom_append, rewritten, replacement_of_none values hnone,
    List.singleton_append] at htokens
  cases pending with
  | cons token pending =>
    have hexponent := hpending token (.head _)
    obtain ⟨_, _, -, -, rfl⟩ := tokensIn_quote_start hc htokens
    cases hexponent
  | nil =>
    obtain ⟨body', tail', hbody', heq, hsame⟩ := tokensIn_quote_start hc htokens
    have hmeaning := String.ofList_injective (Token.string.inj hsame)
    rw [untouched, hnone, untouched_of_string values hc hbody hbody' heq hmeaning.symm]
    rfl

/-- Where the tokens of the result are as they should be, the first token is touched exactly if it is a
placeholder. -/
theorem untouched_eq_isNone {behindDot : Bool} {token : Token}
    (h : lexemeAt c rest = (.token token, n)) {pending : List Token}
    (hpending : ∀ token ∈ pending, isExponentToken token = true)
    (hdot : pending ≠ [] → behindDot = false) {tokens : List Token}
    (htokens : tokensIn (substituteFrom values mode (c :: rest)) = some (pending ++
      (tokenImage values behindDot token (rest.drop n).head? ++ tokens))) :
    untouched mode (rest.drop n).head? (c :: rest.take n) =
      (tokenPlaceholder? behindDot token).isNone := by
  have hview := lexemeAt_view c rest
  rw [h] at hview
  dsimp only at hview
  cases hview with
  | @string hc body tail hbody hrest =>
    subst hrest
    have htake : (body ++ c :: tail).take (body.length + 1) = body ++ [c] := by
      rw [List.take_length_add_append]
      rfl
    have hdrop : (body ++ c :: tail).drop (body.length + 1) = tail := by
      rw [← List.drop_drop, List.drop_left]
      rfl
    rw [hdrop] at htokens ⊢
    rw [htake]
    exact untouched_string values mode hc hbody hpending htokens
  | identifier => exact untouched_identifier values mode h hpending hdot htokens
  | keyword hc hword =>
    obtain ⟨hlength, hall⟩ := keyword_chars hword
    match rest.take (runLength isNamePart rest), hlength, hall with
    | d :: text, _, hall => exact untouched_word mode _ hall
  | number hc hnumber =>
    obtain ⟨n, rfl⟩ := Nat.exists_eq_add_one.2 (numberAt?_pos hnumber)
    exact untouched_number mode _ hnumber
  | mark hc hcomment hnumber hmark =>
    obtain ⟨hpos, hletters⟩ := mark_chars hmark
    obtain ⟨n, rfl⟩ := Nat.exists_eq_add_one.2 hpos
    exact untouched_of_not_mem mode _ hletters

end

end SequenceNotation.Sequence
