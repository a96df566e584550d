import Mathlib.Data.List.Find
import SequenceNotation.Proofs.Notation.SeparatedTokens
import SequenceNotation.Proofs.Notation.Slices

/-!
# Lines of separated tokens

A start with tokens behind it, and one separator in front of each token.  The start ends at the first separator and is
read as it is on its own, whatever the separator is; the tokens remain.
-/

namespace SequenceNotation.Notation

open SequenceNotation.Text SequenceNotation.Pattern

variable {delimiter : Option String} {separator : Char}

/-! ### Starts -/

/-- No delimiter changes how the body behind a mark is read. -/
theorem StartMark.read_fixed (mark : StartMark) (delimiter delimiter' : Option String) (body : List Char) :
    mark.read (Segments.ofDelimiter delimiter) body = mark.read (Segments.ofDelimiter delimiter') body := by
  have hfind (name : String) (hname : name ∈ fixedNames) := find?_fixed hname delimiter delimiter' body
  cases mark with
  | date =>
    show readDateStart _ body = readDateStart _ body
    rw [readDateStart, hfind "date_body" (by decide), readDateStart]
  | ownList =>
    show readOwnList _ body = readOwnList _ body
    rw [readOwnList, hfind "own_body" (by decide), readOwnList]
  | predefined =>
    show readPredefined _ body = readPredefined _ body
    rw [readPredefined, hfind "predef_body" (by decide), readPredefined]
  | expression =>
    show readExpression _ body = readExpression _ body
    rw [readExpression, hfind "expr_body" (by decide), readExpression]
  | function =>
    show readFunction _ body = readFunction _ body
    rw [readFunction, hfind "func_body" (by decide), readFunction]

/-- No delimiter changes how a start without a mark is read. -/
theorem readUnmarked_fixed (delimiter delimiter' : Option String) (defaultStart : String) (body : List Char) :
    readUnmarked (Segments.ofDelimiter delimiter) defaultStart body =
      readUnmarked (Segments.ofDelimiter delimiter') defaultStart body := by
  have hdecimal (text : List Char) :
      readDecimal? (Segments.ofDelimiter delimiter) text = readDecimal? (Segments.ofDelimiter delimiter') text := by
    have hname : "decimal_body" ∈ fixedNames := by decide
    rw [readDecimal?, find?_fixed hname delimiter delimiter', readDecimal?]
  have hname : "alpha_body" ∈ fixedNames := by decide
  rw [readUnmarked, hdecimal, hdecimal, find?_fixed hname delimiter delimiter', readUnmarked]

/-- A line can be taken apart in one way only. -/
theorem TakenApart.unique {segments : Segments} {defaultStart : String} {text : List Char}
    {classified classified' : Classified} (h : TakenApart segments defaultStart text classified)
    (h' : TakenApart segments defaultStart text classified') : classified = classified' := by
  have hsplit {front back front' back' : List Char} (htext : front ++ back = front' ++ back')
      (hlength : byteLength front = byteLength front') : front = front' ∧ back = back' := by
    have hown := splitAtByte_byteLength front back
    rw [htext, hlength, splitAtByte_byteLength] at hown
    exact ⟨(Prod.mk.inj hown).1.symm, (Prod.mk.inj hown).2.symm⟩
  obtain ⟨start, remainder⟩ := classified
  obtain ⟨start', remainder'⟩ := classified'
  obtain ⟨front, body, rest, htext, hremainder, hstart⟩ := h
  obtain ⟨front', body', rest', htext', hremainder', hstart'⟩ := h'
  obtain rfl : remainder = String.ofList rest := hremainder
  obtain rfl : remainder' = String.ofList rest' := hremainder'
  -- Where the body begins and ends is fixed by the mask of the text, and the parts by these two places.
  cases hmark : findMark? segments (mask text) with
  | some found =>
    obtain ⟨kind, bodyStart⟩ := found
    rw [hmark] at hstart hstart'
    obtain ⟨hfront, hbody, hread⟩ := hstart
    obtain ⟨hfront', hbody', hread'⟩ := hstart'
    obtain ⟨rfl, hback⟩ := hsplit (htext.symm.trans htext') (hfront.symm.trans hfront')
    have hlength := hbody.symm.trans hbody'
    rw [byteLength_append, byteLength_append] at hlength
    obtain ⟨rfl, rfl⟩ := hsplit hback (Nat.add_left_cancel hlength)
    obtain rfl : start = start' := hread.trans hread'.symm
    rfl
  | none =>
    rw [hmark] at hstart hstart'
    obtain ⟨rfl, hbody, hread⟩ := hstart
    obtain ⟨rfl, hbody', hread'⟩ := hstart'
    have htexts : body ++ rest = body' ++ rest' := htext.symm.trans htext'
    obtain ⟨rfl, rfl⟩ := hsplit htexts (hbody.symm.trans hbody')
    obtain rfl : start = start' := hread.trans hread'.symm
    rfl

/-! ### Lines -/

/-- A start and tokens for a line with a separator in front of each token: the start is taken as a whole. -/
structure LineFits (separator : Char) (start : List Char) (tokens : List LineToken) : Prop where
  start_ne_nil : start ≠ []
  start_clean : ∀ c ∈ start, isBlank c = false ∧ c ≠ separator
  start_whole : ∀ defaultStart,
    (classify (Segments.ofDelimiter none) defaultStart (String.ofList start)).remainder = ""
  start_closed : tokens ≠ [] → openAfter .none start = .none
  tokens_fit : TokensFit separator tokens

theorem LineToken.text_ne_nil {token : LineToken} (h : TokenFits separator token) : token.text ≠ [] := by
  cases token with
  | bare literal => exact literal.text_ne_nil
  | modifier key spelling value =>
    obtain ⟨hkey, -⟩ := h.spelled key spelling value rfl
    have hspelled : (key, spelling.toList) ∈ spelledKeys := mem_spelledKeys.2 ⟨spelling, hkey, rfl⟩
    exact fun hnil => spelling_ne_nil hspelled (List.append_eq_nil_iff.1 hnil).1

/-- No blanks stand at the ends of a line. -/
theorem LineFits.trim_eq {start : List Char} {tokens : List LineToken} (h : LineFits separator start tokens) :
    trim (start ++ separated separator tokens) = start ++ separated separator tokens := by
  obtain ⟨c, others, hstart⟩ := List.exists_cons_of_ne_nil h.start_ne_nil
  have hhead : (start ++ separated separator tokens).head?.any isBlank = false := by
    rw [hstart]
    exact (h.start_clean c (by rw [hstart]; exact List.mem_cons_self)).1
  have hends {front text : List Char} (hne : text ≠ []) (hclean : ∀ c ∈ text, isBlank c = false) :
      (front ++ text).getLast?.any isBlank = false := by
    rcases List.eq_nil_or_concat text with hnil | ⟨front', last, htext⟩
    · exact absurd hnil hne
    · rw [htext, List.concat_eq_append, ← List.append_assoc, List.getLast?_concat]
      exact hclean last (by rw [htext, List.concat_eq_append]; exact List.mem_append_right _ List.mem_cons_self)
  refine trim_of_ends hhead ?_
  -- The line ends with its start if it has no tokens, and with the last token otherwise.
  rcases List.eq_nil_or_concat tokens with rfl | ⟨front, token, rfl⟩
  · show (start ++ []).getLast?.any isBlank = false
    rw [List.append_nil]
    exact @hends [] start h.start_ne_nil fun c hc => (h.start_clean c hc).1
  · have hfits := h.tokens_fit.fits token (by rw [List.concat_eq_append]; exact List.mem_append_right _ List.mem_cons_self)
    have htext : start ++ separated separator (front.concat token) =
        start ++ separated separator front ++ [separator] ++ token.text := by
      simp [separated]
    rw [htext]
    exact hends (LineToken.text_ne_nil hfits) fun c hc => (hfits.clean c hc).1

/-- A start is marked in a line as it is on its own. -/
theorem IsSeparator.findMark?_append (h : IsSeparator delimiter separator) {masked rest : List Char}
    (hne : masked ≠ []) (hrest : rest = [] ∨ rest.head? = some separator) :
    findMark? (Segments.ofDelimiter delimiter) (masked ++ rest) = findMark? (Segments.ofDelimiter none) masked := by
  have htail : ∀ mark ∈ StartMark.all, ∀ word ∈ mark.words.map String.toList,
      word ≠ [] ∧ word.tail.all (fun c => c.isLower ∨ c = ':') := by
    decide
  have hcolon : separator ≠ ':' := by
    rintro rfl
    exact h.not_key (.expression, [':', ':']) (by decide) List.mem_cons_self
  have hsame (mark : StartMark) :
      (mark.words.map String.toList).find? (· <+: masked ++ rest) =
        (mark.words.map String.toList).find? (· <+: masked) := by
    refine List.find?_congr fun word hword => decide_eq_decide.2 ⟨fun hprefix => ?_, fun hprefix => ?_⟩
    · -- behind the first character a word has small letters and colons only, and no separator is one of them
      obtain ⟨hword_ne, hmarks⟩ := htail mark (by cases mark <;> decide) word hword
      obtain ⟨c, masked, rfl⟩ := List.exists_cons_of_ne_nil hne
      obtain ⟨d, word, rfl⟩ := List.exists_cons_of_ne_nil hword_ne
      obtain ⟨rfl, hbehind⟩ := List.cons_prefix_cons.1 hprefix
      refine List.cons_prefix_cons.2 ⟨rfl, prefix_of_not_mem hbehind fun e he hmem => ?_⟩
      rcases hrest with rfl | hhead
      · cases he
      · obtain rfl := Option.mem_unique he hhead
        rcases forall_of_all hmarks e hmem with hlower | hmark
        · rw [h.not_lower] at hlower
          cases hlower
        · exact hcolon hmark
    · exact hprefix.trans (List.prefix_append masked rest)
  rw [findMark?, findMark?]
  refine congrArg (StartMark.all.findSome? ·) (funext fun mark => ?_)
  rw [find?_mark, find?_mark, hsame, Option.map_map, Option.map_map]
  rfl

/-- A body that reaches the end of its text ends in front of a separator. -/
theorem IsSeparator.bodyEnd_append (h : IsSeparator delimiter separator) (mark : StartMark)
    {front body rest : List Char} (hclean : ∀ c ∈ body, isBlank c = false ∧ c ≠ separator)
    (hrest : rest = [] ∨ rest.head? = some separator)
    (hown : mark.bodyEnd (Segments.ofDelimiter none) (front ++ body) (byteLength front) = byteLength (front ++ body)) :
    mark.bodyEnd (Segments.ofDelimiter delimiter) (front ++ (body ++ rest)) (byteLength front) =
      byteLength (front ++ body) := by
  cases mark with
  | expression =>
    exact expressionBoundaryAfter_isToken (h.isToken (List.nil_subset _)
      (isToken_of_expressionBoundaryAfter hown) hclean hrest) front
  | date | ownList | predefined | function =>
    exact boundaryAfter_isToken (h.isToken (fun _ => id) (isToken_of_boundaryAfter hown) hclean hrest) front

theorem LineFits.mask_eq {start : List Char} {tokens : List LineToken} (h : LineFits separator start tokens) :
    mask (start ++ separated separator tokens) = mask start ++ mask (separated separator tokens) := by
  cases tokens with
  | nil =>
    show mask (start ++ []) = mask start ++ []
    rw [List.append_nil, List.append_nil]
  | cons token tokens => exact mask_append (h.start_closed (List.cons_ne_nil token tokens)) _

/-- The body of a start ends in a line where it ends on its own. -/
theorem LineFits.bodyEnd_eq {front body : List Char} {tokens : List LineToken}
    (h : LineFits separator (front ++ body) tokens) (hseparator : IsSeparator delimiter separator) (mark : StartMark)
    (hown : mark.bodyEnd (Segments.ofDelimiter none) (mask (front ++ body)) (byteLength front) =
      byteLength (front ++ body)) :
    mark.bodyEnd (Segments.ofDelimiter delimiter) (mask (front ++ body ++ separated separator tokens))
      (byteLength front) = byteLength (front ++ body) := by
  have hmask : mask (front ++ body) = mask front ++ maskFrom (openAfter .none front) body := maskFrom_append ..
  have hfront : byteLength (mask front) = byteLength front := byteLength_maskFrom ..
  have hlength : byteLength (mask (front ++ body)) = byteLength (front ++ body) := byteLength_maskFrom ..
  have hclean : ∀ c ∈ body, isBlank c = false ∧ c ≠ separator :=
    fun c hc => h.start_clean c (List.mem_append_right _ hc)
  rw [← hfront, ← hlength, hmask] at hown
  rw [h.mask_eq, ← hfront, ← hlength, hmask, List.append_assoc]
  exact hseparator.bodyEnd_append mark (hseparator.clean_mask hclean) (mask_separated_head tokens) hown

/-- The start of a line is read as it is on its own, and what is behind it remains. -/
theorem LineFits.classify_eq {start : List Char} {tokens : List LineToken} (h : LineFits separator start tokens)
    (hseparator : IsSeparator delimiter separator) (hdelimiter : ∀ text ∈ delimiter, filler ∉ text.toList)
    (defaultStart : String) :
    classify (Segments.ofDelimiter delimiter) defaultStart (String.ofList (start ++ separated separator tokens)) =
      { start := (classify (Segments.ofDelimiter none) defaultStart (String.ofList start)).start,
        remainder := String.ofList (separated separator tokens) } := by
  have hline := takenApart_classify hdelimiter defaultStart (String.ofList (start ++ separated separator tokens))
  rw [String.toList_ofList, h.trim_eq] at hline
  refine hline.unique ?_
  have htrim : trim start = start := trim_of_forall fun c hc => (h.start_clean c hc).1
  have hne : mask start ≠ [] := fun hnil => by
    have hhead := head?_mask start
    rw [hnil] at hhead
    exact h.start_ne_nil (List.head?_eq_none_iff.1 hhead.symm)
  obtain ⟨front, body, rest, htext, hremainder, hstart⟩ :=
    takenApart_classify filler_not_mem_none defaultStart (String.ofList start)
  rw [String.toList_ofList, htrim] at htext hstart
  obtain rfl : rest = [] := by
    rw [h.start_whole defaultStart] at hremainder
    exact String.ofList_eq_empty_iff.1 hremainder.symm
  rw [List.append_nil] at htext
  -- The line is taken apart where its start is: the same mark is found, and the body ends with the start.
  refine ⟨front, body, separated separator tokens, by rw [htext, List.append_assoc], rfl, ?_⟩
  rw [h.mask_eq, hseparator.findMark?_append hne (mask_separated_head tokens), ← h.mask_eq]
  revert hstart
  cases findMark? (Segments.ofDelimiter none) (mask start) with
  | some found =>
    obtain ⟨mark, bodyStart⟩ := found
    rintro ⟨rfl, hown, hread⟩
    subst htext
    exact ⟨rfl, h.bodyEnd_eq hseparator mark hown, hread.trans (mark.read_fixed none delimiter body)⟩
  | none =>
    rintro ⟨rfl, hown, hread⟩
    obtain rfl : start = body := htext
    have hend := @LineFits.bodyEnd_eq delimiter separator [] start tokens h hseparator .date hown
    exact ⟨rfl, hend, hread.trans (readUnmarked_fixed none delimiter defaultStart start)⟩

/-- A start of plain characters without a mark is taken as a whole. -/
theorem start_whole_of_plain {start : List Char} (hplain : ∀ c ∈ start, IsPlain c)
    (hmark : ∀ mark ∈ StartMark.all, ∀ word ∈ mark.words.map String.toList, ¬ word <+: start) (defaultStart : String) :
    (classify (Segments.ofDelimiter none) defaultStart (String.ofList start)).remainder = "" := by
  have hmask : mask start = start := mask_plain fun c hc => (hplain c hc).1
  have hnone : findMark? (Segments.ofDelimiter none) start = none := by
    refine List.findSome?_eq_none_iff.2 fun mark hmem => ?_
    have hfind : (mark.words.map String.toList).find? (· <+: start) = none :=
      List.find?_eq_none.2 fun word hword hprefix => hmark mark hmem word hword (of_decide_eq_true hprefix)
    rw [find?_mark, hfind]
    rfl
  have htoken : IsToken (EndsToken (delimiterWord? none) keySpellings) start [] :=
    isToken_of_shown (fun c hc => (hplain c hc).2) (.inl rfl)
  have hend : (Segments.ofDelimiter none).boundaryAfter start 0 = byteLength start := by
    have hown := boundaryAfter_isToken htoken []
    rwa [List.nil_append, List.append_nil] at hown
  have hsplit : splitAtByte (byteLength start) start = (start, []) := by
    have hown := splitAtByte_byteLength start []
    rwa [List.append_nil] at hown
  rw [classify, String.toList_ofList, trim_of_plain hplain, hmask, hnone]
  simp only [hend, hsplit]

end SequenceNotation.Notation
