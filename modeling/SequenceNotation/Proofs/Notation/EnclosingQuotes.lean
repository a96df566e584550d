import SequenceNotation.Proofs.Notation.KeyByKey
import SequenceNotation.Proofs.Notation.ModifierRoundTrip

/-!
# Enclosing quotes

A value is one quoted literal if its mask is a quote, nothing but fillers, and the same quote again.  The quotes around
a value are looked for at its ends only, so they are also taken off a value in which the first quote is closed earlier,
or the last one is escaped; everywhere else exactly the quotes of literals are taken off.
-/

namespace SequenceNotation.Notation

open SequenceNotation.Text SequenceNotation.Pattern

/-! ### Literals -/

/-- A text in quotes of a kind that does not close them: a backslash takes the character behind it along. -/
inductive QuotedBody (quote : Char) : List Char → Prop
  | nil : QuotedBody quote []
  | plain {c : Char} {body : List Char} (hc : c ≠ quote) (hback : c ≠ '\\') (hbody : QuotedBody quote body) :
    QuotedBody quote (c :: body)
  | escape (c : Char) {body : List Char} (hbody : QuotedBody quote body) : QuotedBody quote ('\\' :: c :: body)

/-- The value is a single quoted literal: its mask is a quote, fillers, and the same quote. -/
def IsLiteral (value : List Char) : Prop :=
  ∃ quote count, isQuote quote ∧ mask value = quote :: (List.replicate count filler ++ [quote])

/-- Fillers in front of other fillers and a last character are fillers of these. -/
theorem exists_of_fillers_append {last : Char} (hlast : last ≠ filler) {m n : Nat} {back : List Char}
    (h : List.replicate m filler ++ back = List.replicate n filler ++ [last]) :
    ∃ count, back = List.replicate count filler ++ [last] := by
  induction m generalizing n with
  | zero => exact ⟨n, h⟩
  | succ m ih =>
    cases n with
    | zero => exact absurd (List.cons.inj h).1.symm hlast
    | succ n => exact ih (List.cons.inj h).2

theorem eq_nil_of_maskFrom {literals : OpenLiterals} {text : List Char} (h : maskFrom literals text = []) :
    text = [] := by
  refine eq_nil_of_byteLength_eq_zero ?_
  rw [← byteLength_maskFrom literals text, h]
  rfl

section Quoted

variable {quote : Char} (hquote : isQuote quote)

include hquote

theorem quote_ne : quote ≠ filler ∧ quote ≠ '\\' := by
  constructor <;> rintro rfl <;> cases hquote

theorem after_escaped (c : Char) :
    ({ closers := [quote], escaped := true } : OpenLiterals).after c = { closers := [quote] } := by
  simp [OpenLiterals.after, hquote]

theorem after_backslash :
    ({ closers := [quote] } : OpenLiterals).after '\\' = { closers := [quote], escaped := true } := by
  simp [OpenLiterals.after, hquote]

theorem maskFrom_escaped_cons (c : Char) (rest : List Char) :
    maskFrom { closers := [quote], escaped := true } (c :: rest) =
      List.replicate c.utf8Size filler ++ maskFrom { closers := [quote] } rest := by
  have hcovered : maskedChar { closers := [quote], escaped := true } c = List.replicate c.utf8Size filler := by
    simp [maskedChar, OpenLiterals.shows, after_escaped hquote]
  rw [maskFrom_cons, hcovered, after_escaped hquote]

theorem maskFrom_quoted_backslash (rest : List Char) :
    maskFrom { closers := [quote] } ('\\' :: rest) =
      List.replicate '\\'.utf8Size filler ++ maskFrom { closers := [quote], escaped := true } rest := by
  have hcovered : maskedChar { closers := [quote] } '\\' = List.replicate '\\'.utf8Size filler := by
    simp [maskedChar, OpenLiterals.shows, after_backslash hquote]
  rw [maskFrom_cons, hcovered, after_backslash hquote]

theorem maskFrom_quoted_cons {c : Char} (hc : c ≠ quote ∧ c ≠ '\\') (rest : List Char) :
    maskFrom { closers := [quote] } (c :: rest) =
      List.replicate c.utf8Size filler ++ maskFrom { closers := [quote] } rest := by
  have hcovered : maskedChar { closers := [quote] } c = List.replicate c.utf8Size filler := by
    simp [maskedChar, OpenLiterals.shows, after_quoted hquote hc]
  rw [maskFrom_cons, hcovered, after_quoted hquote hc]

theorem maskFrom_quoted_quote (rest : List Char) :
    maskFrom { closers := [quote] } (quote :: rest) = quote :: mask rest := by
  have hshown : maskedChar { closers := [quote] } quote = [quote] := by
    simp [maskedChar, OpenLiterals.shows, after_closing_quote hquote, OpenLiterals.none]
  rw [maskFrom_cons, hshown, after_closing_quote hquote]
  rfl

/-- Only fillers show between quotes that nothing closes. -/
theorem QuotedBody.maskFrom_eq {body : List Char} (h : QuotedBody quote body) :
    maskFrom { closers := [quote] } (body ++ [quote]) = List.replicate (byteLength body) filler ++ [quote] := by
  induction h with
  | nil => exact maskFrom_quoted_quote hquote []
  | plain hc hback _ ih =>
    rw [List.cons_append, maskFrom_quoted_cons hquote ⟨hc, hback⟩, ih, byteLength_cons,
      ← List.replicate_append_replicate, List.append_assoc]
  | escape c _ ih =>
    rw [List.cons_append, List.cons_append, maskFrom_quoted_backslash hquote, maskFrom_escaped_cons hquote, ih,
      byteLength_cons, byteLength_cons, ← List.replicate_append_replicate, ← List.replicate_append_replicate,
      List.append_assoc, List.append_assoc]

/-- Where only fillers show up to a quote at the end, this quote is the first one that closes; behind a backslash one
character more counts as plain. -/
theorem exists_quotedBody (rest : List Char) :
    (∀ count, maskFrom { closers := [quote] } rest = List.replicate count filler ++ [quote] →
      ∃ body, rest = body ++ [quote] ∧ QuotedBody quote body) ∧
    (∀ count, maskFrom { closers := [quote], escaped := true } rest = List.replicate count filler ++ [quote] →
      ∃ c body, rest = c :: (body ++ [quote]) ∧ QuotedBody quote body) := by
  have hne := (quote_ne hquote).1
  induction rest with
  | nil => exact ⟨fun count h => by simp [maskFrom] at h, fun count h => by simp [maskFrom] at h⟩
  | cons c rest ih =>
    refine ⟨fun count h => ?_, fun count h => ?_⟩
    · by_cases hback : c = '\\'
      · -- the backslash takes a character along
        subst hback
        rw [maskFrom_quoted_backslash hquote] at h
        obtain ⟨count', hrest⟩ := exists_of_fillers_append hne h
        obtain ⟨d, body, rfl, hbody⟩ := ih.2 count' hrest
        exact ⟨'\\' :: d :: body, rfl, hbody.escape d⟩
      · by_cases hc : c = quote
        · -- a quote that closes shows, so it is the one at the end
          subst hc
          rw [maskFrom_quoted_quote hquote] at h
          cases count with
          | zero =>
            obtain rfl := eq_nil_of_maskFrom (List.cons.inj h).2
            exact ⟨[], rfl, .nil⟩
          | succ count => exact absurd (List.cons.inj h).1 hne
        · rw [maskFrom_quoted_cons hquote ⟨hc, hback⟩] at h
          obtain ⟨count', hrest⟩ := exists_of_fillers_append hne h
          obtain ⟨body, rfl, hbody⟩ := ih.1 count' hrest
          exact ⟨c :: body, rfl, hbody.plain hc hback⟩
    · rw [maskFrom_escaped_cons hquote] at h
      obtain ⟨count', hrest⟩ := exists_of_fillers_append hne h
      obtain ⟨body, rfl, hbody⟩ := ih.1 count' hrest
      exact ⟨c, body, rfl, hbody⟩

end Quoted

/-- A literal is a quote, a text that does not close it, and the same quote. -/
theorem isLiteral_iff {value : List Char} :
    IsLiteral value ↔ ∃ quote body, isQuote quote ∧ value = quote :: (body ++ [quote]) ∧ QuotedBody quote body := by
  constructor
  · rintro ⟨quote, count, hquote, hmask⟩
    cases value with
    | nil => cases hmask
    | cons c rest =>
      obtain ⟨rfl, hrest⟩ := List.cons.inj hmask
      rw [after_quote hquote] at hrest
      obtain ⟨body, rfl, hbody⟩ := (exists_quotedBody hquote rest).1 count hrest
      exact ⟨c, body, hquote, rfl, hbody⟩
  · rintro ⟨quote, body, hquote, rfl, hbody⟩
    refine ⟨quote, byteLength body, hquote, ?_⟩
    rw [mask, maskFrom_cons, after_quote hquote, hbody.maskFrom_eq hquote]
    rfl

/-! ### Values as they are cut out -/

/-- The modifiers of a text with its mask, with all quotes that stand around their values. -/
def cutModifiers (segments : Segments) (masked text : List Char) : List WrittenModifier :=
  match segments.find? "modifier" masked with
  | none => []
  | some found =>
    let rest := (splitAtByte (byteLength found.before) text).2
    let behind := (splitAtByte (byteLength found.matched) rest).2
    let length := valueLength segments found.after behind
    let (value, text') := splitAtByte length behind
    let masked' := (splitAtByte length found.after).2
    if masked'.length < masked.length then
      match ModifierKey.ofMatch? found with
      | some key => { key, keyText := found.matched, value := trim value } :: cutModifiers segments masked' text'
      | none => cutModifiers segments masked' text'
    else []
termination_by masked.length

/-- What is written are the values as they are cut out, without quotes. -/
theorem writtenModifiers_eq_cutModifiers (segments : Segments) (masked text : List Char) :
    (writtenModifiers segments masked text).1 =
      (cutModifiers segments masked text).map fun cut => { cut with value := unquote cut.value } := by
  fun_induction cutModifiers segments masked text with
  | case1 masked text hnone =>
    rw [writtenModifiers, hnone]
    rfl
  | case2 masked text found hfound rest behind length value text' hsplit masked' hshorter key hkey ih =>
    simp only [rest, behind, length, masked'] at hsplit hshorter ih ⊢
    rw [writtenModifiers, hfound, List.map_cons, ← ih]
    simp only [hsplit, if_pos hshorter, hkey]
  | case3 masked text found hfound rest behind length value text' hsplit masked' hshorter hkey ih =>
    simp only [rest, behind, length, masked'] at hsplit hshorter ih ⊢
    rw [writtenModifiers, hfound, ← ih]
    simp only [hsplit, if_pos hshorter, hkey]
  | case4 masked text found hfound rest behind length value text' hsplit masked' hshorter =>
    simp only [rest, behind, length, masked'] at hsplit hshorter
    rw [writtenModifiers, hfound]
    simp only [hsplit, if_neg hshorter, List.map_nil]

/-- A modifier between texts that open no literals: what is cut out for it, and what is cut out behind it. -/
theorem cutModifiers_piece {delimiter : Option String} {key : ModifierKey} {gap spelling value rest : List Char}
    (hkey : (key, spelling) ∈ spelledKeys)
    (hgap : ∀ c ∈ gap, closer? c = none ∧ ∀ spelled ∈ spelledKeys, c ∉ spelled.2)
    (hhash : spelling = ['#'] → (value ++ rest).head? ≠ some '#') (hmask : mask (value ++ rest) = mask value ++ mask rest)
    (hvalue : valueLength (Segments.ofDelimiter delimiter) (mask (value ++ rest)) (value ++ rest) = byteLength value) :
    cutModifiers (Segments.ofDelimiter delimiter) (mask (gap ++ (spelling ++ (value ++ rest))))
        (gap ++ (spelling ++ (value ++ rest))) =
      { key, keyText := spelling, value := trim value } ::
        cutModifiers (Segments.ofDelimiter delimiter) (mask rest) rest := by
  have hhash' : spelling = ['#'] → (mask value ++ mask rest).head? ≠ some '#' := by
    rw [← hmask, head?_mask]
    exact hhash
  have hfound : (Segments.ofDelimiter delimiter).find? "modifier" (gap ++ (spelling ++ (mask value ++ mask rest))) = _ :=
    find?_modifier_of_key hkey hhash' (noKeyIn_of_not_mem (fun c hc => (hgap c hc).2) _)
  have hgapLength : byteLength gap = byteLength gap := rfl
  obtain ⟨hsplit, hbehind, hshorter⟩ :=
    splits_of_found (spelling_ne_nil hkey) hgapLength (byteLength_maskFrom .none value) (mask rest) rest
  rw [hmask] at hvalue
  rw [mask_piece hkey (fun c hc => (hgap c hc).1) hmask, cutModifiers, hfound]
  simp only [hsplit, splitAtByte_byteLength, hvalue]
  simp only [mask] at hbehind hshorter ⊢
  simp only [hbehind, if_pos hshorter]
  rw [ofMatch?_of_captures rfl]

/-- Of one modifier behind a space, whose value stands alone, the value is cut out. -/
theorem cutModifiers_alone {key : ModifierKey} {spelling value : List Char} (hkey : (key, spelling) ∈ spelledKeys)
    (hvalue : StandsAlone value) :
    cutModifiers (Segments.ofDelimiter none) (mask (' ' :: (spelling ++ value))) (' ' :: (spelling ++ value)) =
      [{ key, keyText := spelling, value := trim value }] := by
  have hgap : ∀ c ∈ [' '], closer? c = none ∧ ∀ spelled ∈ spelledKeys, c ∉ spelled.2 :=
    List.forall_mem_singleton.2 ⟨by decide, not_mem_spelling_of_isBlank (by decide)⟩
  have hhash : spelling = ['#'] → (value ++ []).head? ≠ some '#' := by
    rw [List.append_nil]
    exact fun _ hhead => (hvalue.head '#' hhead).2 rfl
  have hnothing : cutModifiers (Segments.ofDelimiter none) (mask []) [] = [] := by
    rw [cutModifiers, show mask [] = [] from rfl, find?_modifier_eq_none (NoKeyIn.nil [])]
  have hcut := cutModifiers_piece hkey hgap hhash (mask_append hvalue.closed []) (hvalue.valueLength_eq (.inl rfl))
  rw [hnothing, List.append_nil] at hcut
  exact hcut

/-- Exactly the quotes of a literal are taken off: they are if the value is one, and else it stays as it is. -/
def UnquotesLiteral (value : List Char) : Prop :=
  (IsLiteral value → ∃ quote body, isQuote quote ∧ value = quote :: (body ++ [quote]) ∧ unquote value = body) ∧
    (¬IsLiteral value → unquote value = value)

/-- The quotes at the ends of a value belong together, if they are there. -/
def EndsBelongTogether (value : List Char) : Prop :=
  ∀ quote body, isQuote quote → value = quote :: (body ++ [quote]) → QuotedBody quote body

theorem unquotesLiteral_iff (value : List Char) : UnquotesLiteral value ↔ EndsBelongTogether value := by
  constructor
  · rintro ⟨-, hother⟩ quote body hquote rfl
    by_cases hliteral : IsLiteral (quote :: (body ++ [quote]))
    · obtain ⟨quote', body', -, heq, hbody⟩ := isLiteral_iff.1 hliteral
      obtain ⟨rfl, hinner⟩ := List.cons.inj heq
      rwa [List.append_cancel_right hinner]
    · -- the quotes are taken off, so the value does not stay
      have hlength := congrArg List.length (hother hliteral)
      rw [unquote_enclosed hquote, List.length_cons, List.length_append, List.length_singleton] at hlength
      omega
  · intro hends
    constructor
    · intro hliteral
      obtain ⟨quote, body, hquote, rfl, -⟩ := isLiteral_iff.1 hliteral
      exact ⟨quote, body, hquote, rfl, unquote_enclosed hquote body⟩
    · intro hother
      refine unquote_eq_self fun quote body hquote heq => hother ?_
      exact isLiteral_iff.2 ⟨quote, body, hquote, heq, hends quote body hquote heq⟩

/-- The values of the modifiers behind a start are cut out of the text and lose the quotes at their ends; for a value
these are the quotes of a literal, or there are none, exactly if the quotes at its ends belong together. -/
theorem quotes_of_literals_iff (segments : Segments) (remainder : String) :
    (writtenModifiers segments (mask remainder.toList) remainder.toList).1 =
        (cutModifiers segments (mask remainder.toList) remainder.toList).map
          (fun cut => { cut with value := unquote cut.value }) ∧
      ∀ cut ∈ cutModifiers segments (mask remainder.toList) remainder.toList,
        UnquotesLiteral cut.value ↔ EndsBelongTogether cut.value :=
  ⟨writtenModifiers_eq_cutModifiers segments _ _, fun cut _ => unquotesLiteral_iff cut.value⟩

/-- An expression in quotes with a quote in it that is escaped. -/
theorem quotes_of_literals_iff_escaped :
    let remainder := " ::\"a + '\\\"'\""
    let cut : WrittenModifier :=
      { key := .expression, keyText := "::".toList, value := "\"a + '\\\"'\"".toList }
    cut ∈ cutModifiers (Segments.ofDelimiter none) (mask remainder.toList) remainder.toList ∧
      ((writtenModifiers (Segments.ofDelimiter none) (mask remainder.toList) remainder.toList).1 =
          (cutModifiers (Segments.ofDelimiter none) (mask remainder.toList) remainder.toList).map
            (fun cut => { cut with value := unquote cut.value }) ∧
        (UnquotesLiteral cut.value ↔ EndsBelongTogether cut.value)) := by
  intro remainder cut
  have halone : StandsAlone cut.value :=
    { closed := by decide, head := by rintro _ ⟨⟩; decide, shown := forall_of_all (by decide) }
  have hkey : (.expression, "::".toList) ∈ spelledKeys := by decide
  have htext : remainder.toList = ' ' :: ("::".toList ++ cut.value) := by decide
  have hcut : cut ∈ cutModifiers (Segments.ofDelimiter none) (mask remainder.toList) remainder.toList := by
    rw [htext, cutModifiers_alone hkey halone]
    decide
  have hboth := quotes_of_literals_iff (Segments.ofDelimiter none) remainder
  exact ⟨hcut, hboth.1, hboth.2 cut hcut⟩

/-- The sum of two literals is an expression in which the first quote is closed earlier; it loses its first and its last
quote. -/
theorem sum_of_literals_loses_quotes :
    let remainder := " ::\"a\"+\"b\""
    let value := "\"a\"+\"b\"".toList
    cutModifiers (Segments.ofDelimiter none) (mask remainder.toList) remainder.toList =
        [{ key := .expression, keyText := "::".toList, value }] ∧
      ¬IsLiteral value ∧ ¬UnquotesLiteral value ∧
      (Modifiers.extract (Segments.ofDelimiter none) {} remainder).value.expression = "a\"+\"b" := by
  intro remainder value
  have halone : StandsAlone value :=
    { closed := by decide, head := by rintro _ ⟨⟩; decide, shown := forall_of_all (by decide) }
  have hkey : (.expression, "::".toList) ∈ spelledKeys := by decide
  have htext : remainder.toList = ' ' :: ("::".toList ++ value) := by decide
  have hcut := cutModifiers_alone hkey halone
  rw [show trim value = value by decide, ← htext] at hcut
  have hother : ¬IsLiteral value := by
    rintro ⟨quote, count, -, hmask⟩
    -- The plus sign shows in the mask, in which a literal has only its quotes and fillers.
    have hplus : '+' ∈ mask value := by decide
    have hfirst : quote = '"' := ((List.cons.inj hmask).1).symm
    rw [hmask, hfirst] at hplus
    rcases List.mem_cons.1 hplus with hquote | hback
    · exact absurd hquote (by decide)
    · rcases List.mem_append.1 hback with hfill | hlast
      · exact absurd (List.eq_of_mem_replicate hfill) (by decide)
      · exact absurd (List.mem_singleton.1 hlast) (by decide)
  have hwritten := writtenModifiers_eq_cutModifiers (Segments.ofDelimiter none) (mask remainder.toList) remainder.toList
  have hgiven : Modifiers.givenValue? (Segments.ofDelimiter none) remainder .expression = some (unquote value) := by
    rw [Modifiers.givenValue?_of_ne (by decide), hwritten, hcut]
    rfl
  have hexpression := Modifiers.setting_extract (Segments.ofDelimiter none) {} remainder .expression
  rw [hgiven] at hexpression
  have hfield (modifiers : Modifiers) : modifiers.expression = ModifierKey.expression.setting modifiers := rfl
  have hloses : String.ofList (unquote value) = "a\"+\"b" := by decide
  refine ⟨hcut, hother, fun hall => absurd (hall.2 hother) (by decide), ?_⟩
  rw [hfield, hexpression]
  exact hloses

end SequenceNotation.Notation
