import SequenceNotation.Proofs.Notation.ModifierRoundTrip

/-!
# Tokens with separators

Modifiers and steps behind a start, with one separator in front of each: a blank, or the user's delimiter.  The
search for modifiers finds the same keys with either; but a delimiter, other than a blank, is taken for the value of a
modifier without one.
-/

namespace SequenceNotation.Notation

open SequenceNotation.Text SequenceNotation.Pattern SequenceNotation.Number

/-! ### Tokens -/

/-- A token of a line: a step outside of all modifiers, or a modifier with the spelling of its key and its value. -/
inductive LineToken where
  | bare (literal : DecimalLiteral)
  | modifier (key : ModifierKey) (spelling : String) (value : List Char)

namespace LineToken

def text : LineToken → List Char
  | bare literal => literal.text
  | modifier _ spelling value => spelling.toList ++ value

end LineToken

/-- Tokens with a separator in front of each. -/
def separated (separator : Char) (tokens : List LineToken) : List Char :=
  tokens.flatMap fun token => separator :: token.text

/-- Tokens with a separator between them. -/
def joined (separator : Char) : List LineToken → List Char
  | [] => []
  | token :: rest => token.text ++ separated separator rest

/-- A value that ends where its text ends. -/
def IsValue (value : List Char) : Prop :=
  valueLength (Segments.ofDelimiter none) (mask value) value = byteLength value

/-- A token of the notation that holds neither blanks nor the separator. -/
structure TokenFits (separator : Char) (token : LineToken) : Prop where
  clean : ∀ c ∈ token.text, isBlank c = false ∧ c ≠ separator
  spelled : ∀ key spelling value, token = .modifier key spelling value →
    spelling ∈ key.spellings ∧ IsValue value ∧ (spelling = "#" → value.head? ≠ some '#')

/-- Tokens that fit, of which all but the last one close what they open. -/
structure TokensFit (separator : Char) (tokens : List LineToken) : Prop where
  fits : ∀ token ∈ tokens, TokenFits separator token
  closed : ∀ token ∈ tokens.dropLast, openAfter .none token.text = .none

theorem TokensFit.tail {separator : Char} {token : LineToken} {rest : List LineToken}
    (h : TokensFit separator (token :: rest)) : TokensFit separator rest where
  fits other hother := h.fits other (List.mem_cons_of_mem token hother)
  closed other hother := by
    have hne : rest ≠ [] := fun hnil => by
      rw [hnil] at hother
      cases hother
    exact h.closed other (by rw [List.dropLast_cons_of_ne_nil hne]; exact List.mem_cons_of_mem token hother)

/-- A character that separates tokens: a blank, if there is no delimiter, or the delimiter. -/
structure IsSeparator (delimiter : Option String) (separator : Char) : Prop where
  ends : (delimiterWord? delimiter = none ∧ isBlank separator) ∨ delimiterWord? delimiter = some [separator]
  opens_none : closer? separator = none
  not_key : ∀ spelled ∈ spelledKeys, separator ∉ spelled.2
  not_lower : separator.isLower = false
  not_filler : separator ≠ filler

theorem isSeparator_space : IsSeparator none ' ' where
  ends := .inl ⟨rfl, by decide⟩
  opens_none := by decide
  not_key := by decide
  not_lower := by decide
  not_filler := by decide

/-! ### Separators end tokens -/

variable {delimiter : Option String} {separator : Char}

theorem mem_mask {literals : OpenLiterals} {text : List Char} {c : Char} (h : c ∈ maskFrom literals text) :
    c ∈ text ∨ c = filler := by
  induction text generalizing literals with
  | nil => cases h
  | cons d text ih =>
    rw [maskFrom_cons] at h
    rcases List.mem_append.1 h with hown | hrest
    · rcases maskedChar_cases literals d with hshown | ⟨n, hcovered⟩
      · rw [hshown] at hown
        exact .inl (List.mem_cons.2 (.inl (List.mem_singleton.1 hown)))
      · rw [hcovered] at hown
        exact .inr (List.eq_of_mem_replicate hown)
    · exact (ih hrest).imp (List.mem_cons_of_mem d) id

/-- Where a token ends: in front of a separator, a blank, or a key. -/
theorem IsSeparator.endsToken_cases (h : IsSeparator delimiter separator) {keys : List (List Char)} {text : List Char}
    (hends : EndsToken (delimiterWord? delimiter) keys text) :
    (∃ c ∈ text.head?, isBlank c ∨ c = separator) ∨ ∃ key ∈ keys, key <+: text := by
  rcases hends with ⟨c, hhead, hc⟩ | ⟨word, hword, hprefix⟩ | hkey
  · exact .inl ⟨c, hhead, .inl hc⟩
  · rcases h.ends with ⟨hnone, -⟩ | hsome
    · rw [hnone] at hword
      cases hword
    · rw [hsome] at hword
      cases hword
      obtain ⟨tail, rfl⟩ := hprefix
      exact .inl ⟨separator, rfl, .inr rfl⟩
  · exact .inr hkey

theorem IsSeparator.endsToken (h : IsSeparator delimiter separator) (keys : List (List Char)) {text : List Char}
    (hhead : text.head? = some separator) : EndsToken (delimiterWord? delimiter) keys text := by
  rcases h.ends with ⟨-, hblank⟩ | hword
  · exact .inl ⟨separator, hhead, hblank⟩
  · obtain ⟨tail, rfl⟩ := List.head?_eq_some_iff.1 hhead
    exact .inr (.inl ⟨[separator], hword, ⟨tail, rfl⟩⟩)

/-- What is a token on its own is one in front of a separator. -/
theorem IsSeparator.isToken (h : IsSeparator delimiter separator) {keys : List (List Char)}
    (hkeys : keys ⊆ keySpellings) {token rest : List Char} (htoken : IsToken (EndsToken none keys) token [])
    (hclean : ∀ c ∈ token, isBlank c = false ∧ c ≠ separator)
    (hrest : rest = [] ∨ rest.head? = some separator) : IsToken (EndsToken (delimiterWord? delimiter) keys) token rest := by
  refine ⟨?_, hrest.imp id (h.endsToken keys)⟩
  rintro front tail rfl hne hends
  rcases h.endsToken_cases hends with ⟨c, hhead, hc⟩ | ⟨key, hkey, hprefix⟩
  · rw [List.head?_append_of_ne_nil _ hne] at hhead
    obtain ⟨hblank, hseparator⟩ := hclean c (List.mem_append_right _ (List.mem_of_mem_head? hhead))
    rcases hc with hc | hc
    · rw [hblank] at hc
      cases hc
    · exact hseparator hc
  · have hshort : key <+: tail := by
      refine prefix_of_not_mem hprefix fun c hc hmem => ?_
      obtain ⟨spelled, hspelled, rfl⟩ := List.mem_map.1 (hkeys hkey)
      rcases hrest with rfl | hhead
      · cases hc
      · obtain rfl := Option.mem_unique hc hhead
        exact h.not_key spelled hspelled hmem
    exact htoken.inside front tail rfl hne (.inr (.inr ⟨key, hkey, by rwa [List.append_nil]⟩))

/-- What has neither blanks nor the separator has none in its mask. -/
theorem IsSeparator.clean_mask (h : IsSeparator delimiter separator) {literals : OpenLiterals} {text : List Char}
    (hclean : ∀ c ∈ text, isBlank c = false ∧ c ≠ separator) :
    ∀ c ∈ maskFrom literals text, isBlank c = false ∧ c ≠ separator := by
  intro c hc
  rcases mem_mask hc with hmem | rfl
  · exact hclean c hmem
  · exact ⟨by decide, fun heq => h.not_filler heq.symm⟩

/-- A token that reaches the end of its mask has no end inside. -/
theorem isToken_of_boundaryAfter {front token : List Char}
    (h : (Segments.ofDelimiter none).boundaryAfter (front ++ token) (byteLength front) = byteLength (front ++ token)) :
    IsToken (EndsToken none keySpellings) token [] := by
  obtain ⟨own, rest, rfl, htoken⟩ := exists_isToken (EndsToken (delimiterWord? none) keySpellings) token
  rw [boundaryAfter_isToken htoken, ← List.append_assoc, byteLength_append (front ++ own)] at h
  obtain rfl : rest = [] := eq_nil_of_byteLength_eq_zero (by omega)
  rwa [List.append_nil]

theorem isToken_of_expressionBoundaryAfter {front token : List Char}
    (h : (Segments.ofDelimiter none).expressionBoundaryAfter (front ++ token) (byteLength front) =
      byteLength (front ++ token)) : IsToken (EndsToken none []) token [] := by
  obtain ⟨own, rest, rfl, htoken⟩ := exists_isToken (EndsToken (delimiterWord? none) []) token
  rw [expressionBoundaryAfter_isToken htoken, ← List.append_assoc, byteLength_append (front ++ own)] at h
  obtain rfl : rest = [] := eq_nil_of_byteLength_eq_zero (by omega)
  rwa [List.append_nil]

/-! ### Words outside of modifiers -/

theorem firstWord?_append {gap : List Char} (hgap : ∀ c ∈ gap, isBlank c) (text : List Char) :
    firstWord? (gap ++ text) = firstWord? text := by
  have htrim : trimLeft (gap ++ text) = trimLeft text := List.dropWhile_append_of_pos hgap
  rw [firstWord?, htrim, firstWord?]

theorem firstWord?_word {word rest : List Char} (hne : word ≠ []) (hword : ∀ c ∈ word, isBlank c = false)
    (hrest : rest = [] ∨ ∃ c ∈ rest.head?, isBlank c) : firstWord? (word ++ rest) = some word := by
  have htrim : trimLeft (word ++ rest) = word ++ rest := by
    obtain ⟨c, word, rfl⟩ := List.exists_cons_of_ne_nil hne
    exact trimLeft_of_head (hword c List.mem_cons_self)
  have htake : (word ++ rest).takeWhile (fun c => !isBlank c) = word := by
    rw [List.takeWhile_append_of_pos fun c hc => by rw [hword c hc]; rfl]
    rcases hrest with rfl | ⟨c, hhead, hc⟩
    · rw [List.takeWhile_nil, List.append_nil]
    · obtain ⟨rest, rfl⟩ := List.head?_eq_some_iff.1 hhead
      rw [List.takeWhile_cons_of_neg (by simp [hc]), List.append_nil]
  rw [firstWord?, htrim, htake]
  split
  · exact absurd rfl hne
  · rfl

/-! ### Searching tokens -/

/-- The text of the value behind a key: a separator that is no blank counts as the value of a modifier without one,
with the step behind it. -/
def valueText (separator : Char) (value : List Char) (rest : List LineToken) : List Char :=
  if value ≠ [] ∨ isBlank separator then value
  else
    match rest with
    | [] => []
    | .bare literal :: _ => separator :: literal.text
    | .modifier .. :: _ => [separator]

/-- The modifiers that are found among tokens. -/
def foundIn (separator : Char) : List LineToken → List WrittenModifier
  | [] => []
  | .bare _ :: rest => foundIn separator rest
  | .modifier key spelling value :: rest =>
    { key, keyText := spelling.toList, value := unquote (trim (valueText separator value rest)) } ::
      foundIn separator rest

/-- The first step outside of all modifiers. -/
def firstBare? : List LineToken → Option DecimalLiteral
  | [] => none
  | .bare literal :: _ => some literal
  | .modifier .. :: rest => firstBare? rest

/-- A text of a line outside of modifiers: it opens nothing and holds nothing that a key could hold. -/
def IsGap (gap : List Char) : Prop :=
  ∀ c ∈ gap, closer? c = none ∧ ∀ spelled ∈ spelledKeys, c ∉ spelled.2

theorem isGap_decimal (literal : DecimalLiteral) : IsGap literal.text := by
  have hmarks : ∀ c ∈ ['+', '-', '.'], c.isLower = false := forall_of_all (by decide)
  have hlower {c : Char} (hc : c ∈ literal.text) : c.isLower = false := by
    rcases literal.mem_text hc with hdigit | hmark
    · have hnine : c.val ≤ '9'.val := of_decide_eq_true (Bool.and_eq_true_iff.1 hdigit).2
      have ha : ¬ 'a'.val ≤ c.val := fun h => absurd (UInt32.le_trans h hnine) (by decide)
      exact Bool.and_eq_false_iff.2 (.inl (decide_eq_false ha))
    · exact hmarks c hmark
  intro c hc
  obtain ⟨hopens, hkey, -⟩ := isPlain_decimal literal c hc
  refine ⟨hopens, fun spelled hspelled hmem => ?_⟩
  rcases mem_spelling hspelled hmem with hletter | hmark
  · rw [hlower hc] at hletter
    cases hletter
  · exact hkey hmark

theorem IsGap.append {gap gap' : List Char} (h : IsGap gap) (h' : IsGap gap') : IsGap (gap ++ gap') :=
  fun c hc => (List.mem_append.1 hc).elim (h c) (h' c)

theorem IsSeparator.isGap (h : IsSeparator delimiter separator) : IsGap [separator] := by
  intro c hc
  rw [List.mem_singleton.1 hc]
  exact ⟨h.opens_none, h.not_key⟩

theorem separated_head (tokens : List LineToken) :
    separated separator tokens = [] ∨ (separated separator tokens).head? = some separator := by
  cases tokens with
  | nil => exact .inl rfl
  | cons token rest => exact .inr rfl

theorem mask_separated_head (tokens : List LineToken) :
    mask (separated separator tokens) = [] ∨ (mask (separated separator tokens)).head? = some separator := by
  rw [head?_mask]
  exact (separated_head tokens).imp (fun hnil => by rw [hnil]; rfl) id

/-- What is found among tokens behind a gap, and the gap with what else is outside of modifiers. -/
def Finds (delimiter : Option String) (separator : Char) (tokens : List LineToken) : Prop :=
  ∀ gap, IsGap gap → ∃ outside,
    writtenModifiers (Segments.ofDelimiter delimiter) (mask (gap ++ joined separator tokens))
        (gap ++ joined separator tokens) = (foundIn separator tokens, gap ++ outside) ∧
      (isBlank separator → (∀ c ∈ gap, isBlank c) →
        firstWord? (gap ++ outside) = (firstBare? tokens).map DecimalLiteral.text)

/-- What is found among tokens with a separator in front of each. -/
theorem Finds.separated (hseparator : IsSeparator delimiter separator) {tokens : List LineToken}
    (h : Finds delimiter separator tokens) :
    ∃ outside, writtenModifiers (Segments.ofDelimiter delimiter) (mask (separated separator tokens))
        (separated separator tokens) = (foundIn separator tokens, outside) ∧
      (isBlank separator → firstWord? outside = (firstBare? tokens).map DecimalLiteral.text) ∧
      (tokens = [] ∧ outside = [] ∨ outside.head? = some separator) := by
  cases tokens with
  | nil =>
    refine ⟨[], ?_, fun _ => rfl, .inl ⟨rfl, rfl⟩⟩
    show writtenModifiers _ [] [] = _
    rw [writtenModifiers_of_noKey (NoKeyIn.nil [])]
    rfl
  | cons token rest =>
    obtain ⟨outside, hfound, hword⟩ := h [separator] hseparator.isGap
    refine ⟨[separator] ++ outside, hfound, fun hblank => hword hblank fun c hc => ?_, .inr rfl⟩
    rwa [List.mem_singleton.1 hc]

theorem finds_nil : Finds delimiter separator [] := by
  intro gap hgap
  have hmask : mask gap = gap := mask_plain fun c hc => (hgap c hc).1
  refine ⟨[], ?_, fun _ hblanks => ?_⟩
  · rw [joined, List.append_nil, hmask, writtenModifiers_of_noKey (noKeyIn_of_not_mem (fun c hc => (hgap c hc).2) [])]
    rfl
  · rw [List.append_nil, firstWord?_of_blanks hblanks]
    rfl

theorem finds_bare (hseparator : IsSeparator delimiter separator) (literal : DecimalLiteral) {rest : List LineToken}
    (ih : Finds delimiter separator rest) : Finds delimiter separator (.bare literal :: rest) := by
  intro gap hgap
  have hliteral := isGap_decimal literal
  have hnonblank : ∀ c ∈ literal.text, isBlank c = false := fun c hc => (isPlain_decimal literal c hc).2.2
  cases rest with
  | nil =>
    -- No key follows, so the gap and the literal are all that is outside.
    have hall := hgap.append hliteral
    have hmask : mask (gap ++ literal.text) = gap ++ literal.text := mask_plain fun c hc => (hall c hc).1
    have htext : joined separator [.bare literal] = literal.text := List.append_nil _
    refine ⟨literal.text, ?_, fun _ hblanks => ?_⟩
    · rw [htext, hmask, writtenModifiers_of_noKey (noKeyIn_of_not_mem (fun c hc => (hall c hc).2) [])]
      rfl
    · have hword := firstWord?_word literal.text_ne_nil hnonblank (.inl rfl)
      rw [List.append_nil] at hword
      rw [firstWord?_append hblanks, hword]
      rfl
  | cons token rest =>
    -- The literal and its separator make the gap in front of the next token longer.
    obtain ⟨outside, hfound, -⟩ := ih (gap ++ (literal.text ++ [separator]))
      (hgap.append (hliteral.append hseparator.isGap))
    have htext : gap ++ joined separator (.bare literal :: token :: rest) =
        gap ++ (literal.text ++ [separator]) ++ joined separator (token :: rest) := by
      simp only [List.append_assoc]
      rfl
    refine ⟨literal.text ++ ([separator] ++ outside), ?_, fun hblank hblanks => ?_⟩
    · rw [htext, hfound]
      simp only [List.append_assoc]
      rfl
    · rw [firstWord?_append hblanks, firstWord?_word literal.text_ne_nil hnonblank (.inr ⟨separator, rfl, hblank⟩)]
      rfl

theorem IsSeparator.ne_hash (h : IsSeparator delimiter separator) : separator ≠ '#' := by
  rintro rfl
  exact h.not_key (.repetition, ['#']) (by decide) List.mem_cons_self

/-- A value in front of the next token is a token behind its key, unless it is empty and no blank follows. -/
theorem IsSeparator.valueLength_eq (h : IsSeparator delimiter separator) {value rest : List Char}
    (hvalue : IsValue value) (hclean : ∀ c ∈ value, isBlank c = false ∧ c ≠ separator)
    (hmask : mask (value ++ rest) = mask value ++ mask rest) (hrest : rest = [] ∨ rest.head? = some separator)
    (hown : value ≠ [] ∨ isBlank separator ∨ rest = []) :
    valueLength (Segments.ofDelimiter delimiter) (mask (value ++ rest)) (value ++ rest) = byteLength value := by
  cases value with
  | nil =>
    rcases hrest with rfl | hhead
    · rfl
    · obtain ⟨rest, rfl⟩ := List.head?_eq_some_iff.1 hhead
      have hblank : isBlank separator := by simpa using hown
      exact if_pos hblank
  | cons c value =>
    have hc := (hclean c List.mem_cons_self).1
    -- On its own the value is a token to its end; the separator then ends it in front of the rest too.
    have halone : IsToken (EndsToken none keySpellings) (mask (c :: value)).tail [] := by
      refine @isToken_of_boundaryAfter [c] _ ?_
      have hlength : byteLength (mask (c :: value)) = byteLength (c :: value) := byteLength_maskFrom ..
      rw [IsValue, valueLength, hc, ← hlength] at hvalue
      exact hvalue
    have hshown : ∀ d ∈ (mask (c :: value)).tail, isBlank d = false ∧ d ≠ separator :=
      fun d hd => h.clean_mask hclean d (List.mem_of_mem_tail hd)
    have hmaskRest : mask rest = [] ∨ (mask rest).head? = some separator := by
      rw [head?_mask]
      exact hrest.imp (fun hnil => by rw [hnil]; rfl) id
    have htoken := h.isToken (fun _ => id) halone hshown hmaskRest
    have hlength : valueLength (Segments.ofDelimiter delimiter) ([c] ++ ((mask (c :: value)).tail ++ mask rest))
        (c :: (value ++ rest)) = byteLength (mask (c :: value)) := valueLength_token hc rfl htoken
    rw [hmask, ← byteLength_maskFrom .none (c :: value)]
    exact hlength

/-- A modifier whose value is taken to be a text is found with it, and the search goes on behind. -/
theorem finds_of_taken {key : ModifierKey} {spelling : String} {value taken behind outside : List Char}
    {rest : List LineToken} (hkey : spelling ∈ key.spellings)
    (htext : value ++ separated separator rest = taken ++ behind)
    (htaken : valueText separator value rest = taken)
    (hhash : spelling = "#" → (taken ++ behind).head? ≠ some '#')
    (hmask : mask (taken ++ behind) = mask taken ++ mask behind)
    (hvalue : valueLength (Segments.ofDelimiter delimiter) (mask (taken ++ behind)) (taken ++ behind) = byteLength taken)
    (hbehind : writtenModifiers (Segments.ofDelimiter delimiter) (mask behind) behind = (foundIn separator rest, outside))
    (hword : isBlank separator → firstWord? outside = (firstBare? rest).map DecimalLiteral.text) :
    Finds delimiter separator (.modifier key spelling value :: rest) := by
  intro gap hgap
  have hspelled : (key, spelling.toList) ∈ spelledKeys := mem_spelledKeys.2 ⟨spelling, hkey, rfl⟩
  have hhash' : spelling.toList = ['#'] → (taken ++ behind).head? ≠ some '#' :=
    fun heq => hhash (String.toList_injective heq)
  have hjoined : joined separator (.modifier key spelling value :: rest) = spelling.toList ++ (taken ++ behind) := by
    rw [← htext, ← List.append_assoc]
    rfl
  refine ⟨' ' :: outside, ?_, fun hblank hblanks => ?_⟩
  · rw [hjoined, writtenModifiers_piece hspelled hgap hhash' hmask hvalue, hbehind, foundIn, htaken]
  · have hspace : ∀ c ∈ [' '], isBlank c := forall_of_all (by decide)
    rw [firstWord?_append hblanks]
    exact (firstWord?_append hspace outside).trans (hword hblank)

/-- Modifiers with a value that ends in front of the separator. -/
theorem finds_value (hseparator : IsSeparator delimiter separator) {key : ModifierKey} {spelling : String}
    {value : List Char} {rest : List LineToken} (h : TokensFit separator (.modifier key spelling value :: rest))
    (hown : value ≠ [] ∨ isBlank separator ∨ rest = []) (ih : Finds delimiter separator rest) :
    Finds delimiter separator (.modifier key spelling value :: rest) := by
  obtain ⟨outside, hbehind, hword, -⟩ := ih.separated hseparator
  have hfits := h.fits _ List.mem_cons_self
  obtain ⟨hkey, hvalue, hhash⟩ := hfits.spelled key spelling value rfl
  have hspelled : (key, spelling.toList) ∈ spelledKeys := mem_spelledKeys.2 ⟨spelling, hkey, rfl⟩
  have hclean : ∀ c ∈ value, isBlank c = false ∧ c ≠ separator :=
    fun c hc => hfits.clean c (List.mem_append_right _ hc)
  have hmask : mask (value ++ separated separator rest) = mask value ++ mask (separated separator rest) := by
    cases rest with
    | nil =>
      show mask (value ++ []) = mask value ++ []
      rw [List.append_nil, List.append_nil]
    | cons token rest =>
      have hclosed : openAfter .none (spelling.toList ++ value) = .none := h.closed _ List.mem_cons_self
      have hspelling : openAfter .none spelling.toList = .none :=
        openAfter_plain fun c hc => (plain_of_mem_spelling hspelled hc).2.2
      rw [openAfter_append, hspelling] at hclosed
      exact mask_append hclosed _
  have htaken : valueText separator value rest = value := by
    rcases hown with hne | hblank | rfl
    · exact if_pos (.inl hne)
    · exact if_pos (.inr hblank)
    · unfold valueText
      split
      · rfl
      · rename_i hnot
        exact (of_not_not (not_or.1 hnot).1).symm
  have hown' : value ≠ [] ∨ isBlank separator ∨ separated separator rest = [] :=
    hown.imp id (.imp id fun hnil => by rw [hnil]; rfl)
  refine finds_of_taken hkey rfl htaken (fun heq => ?_) hmask
    (hseparator.valueLength_eq hvalue hclean hmask (separated_head rest) hown') hbehind hword
  cases value with
  | nil =>
    have hrest : separated separator rest = [] ∨ (separated separator rest).head? = some separator := separated_head rest
    rcases hrest with hnil | hhead
    · rw [List.nil_append, hnil]
      exact fun h => by cases h
    · rw [List.nil_append, hhead]
      rintro ⟨⟩
      exact hseparator.ne_hash rfl
  | cons c value => exact hhash heq

/-- A delimiter behind a modifier without value is taken as its value, with the token that it begins. -/
theorem finds_separator (hseparator : IsSeparator delimiter separator) (hblank : isBlank separator = false)
    {key : ModifierKey} {spelling : String} {token behind outside : List Char} {rest : List LineToken}
    (hkey : spelling ∈ key.spellings) (htext : separated separator rest = separator :: (token ++ behind))
    (htaken : valueText separator [] rest = separator :: token) (hplain : ∀ c ∈ token, closer? c = none)
    (htoken : IsToken (EndsToken (delimiterWord? delimiter) keySpellings) token (mask behind))
    (hbehind : writtenModifiers (Segments.ofDelimiter delimiter) (mask behind) behind =
      (foundIn separator rest, outside)) :
    Finds delimiter separator (.modifier key spelling [] :: rest) := by
  have hopens : ∀ c ∈ separator :: token, closer? c = none := List.forall_mem_cons.2 ⟨hseparator.opens_none, hplain⟩
  have hmask : mask (separator :: token ++ behind) = mask (separator :: token) ++ mask behind :=
    mask_append (openAfter_plain hopens) behind
  have hvalue : valueLength (Segments.ofDelimiter delimiter) (mask (separator :: token ++ behind))
      (separator :: token ++ behind) = byteLength (separator :: token) := by
    have hlength : valueLength (Segments.ofDelimiter delimiter) ([separator] ++ (token ++ mask behind))
        (separator :: (token ++ behind)) = byteLength ([separator] ++ token) := valueLength_token hblank rfl htoken
    rw [hmask, mask_plain hopens]
    exact hlength
  have htext' : [] ++ separated separator rest = separator :: token ++ behind := htext
  refine finds_of_taken hkey htext' htaken (fun _ heq => hseparator.ne_hash (Option.some.inj heq)) hmask hvalue hbehind
    fun h => ?_
  rw [hblank] at h
  cases h

theorem finds_separator_bare (hseparator : IsSeparator delimiter separator) (hblank : isBlank separator = false)
    {key : ModifierKey} {spelling : String} {literal : DecimalLiteral} {rest : List LineToken}
    (h : TokensFit separator (.modifier key spelling [] :: .bare literal :: rest))
    (ih : Finds delimiter separator rest) :
    Finds delimiter separator (.modifier key spelling [] :: .bare literal :: rest) := by
  obtain ⟨outside, hbehind, -⟩ := ih.separated hseparator
  have hkey := ((h.fits _ List.mem_cons_self).spelled key spelling [] rfl).1
  have hclean : ∀ c ∈ literal.text, isBlank c = false ∧ c ≠ separator :=
    (h.tail.fits _ List.mem_cons_self).clean
  have htaken : valueText separator [] (.bare literal :: rest) = separator :: literal.text := by
    rw [valueText, if_neg (by simp [hblank])]
  have halone : IsToken (EndsToken none keySpellings) literal.text [] :=
    isToken_of_shown (fun c hc => (isPlain_decimal literal c hc).2) (.inl rfl)
  exact finds_separator hseparator hblank hkey rfl htaken (fun c hc => (isPlain_decimal literal c hc).1)
    (hseparator.isToken (fun _ => id) halone hclean (mask_separated_head rest)) hbehind

theorem finds_separator_modifier (hseparator : IsSeparator delimiter separator) (hblank : isBlank separator = false)
    {key key' : ModifierKey} {spelling spelling' : String} {value : List Char} {rest : List LineToken}
    (h : TokensFit separator (.modifier key spelling [] :: .modifier key' spelling' value :: rest))
    (ih : Finds delimiter separator (.modifier key' spelling' value :: rest)) :
    Finds delimiter separator (.modifier key spelling [] :: .modifier key' spelling' value :: rest) := by
  obtain ⟨outside, hbehind, -⟩ := ih [] fun c hc => absurd hc List.not_mem_nil
  have hkey := ((h.fits _ List.mem_cons_self).spelled key spelling [] rfl).1
  have hkey' := ((h.tail.fits _ List.mem_cons_self).spelled key' spelling' value rfl).1
  have hspelled : (key', spelling'.toList) ∈ spelledKeys := mem_spelledKeys.2 ⟨spelling', hkey', rfl⟩
  have htaken : valueText separator [] (.modifier key' spelling' value :: rest) = [separator] := by
    rw [valueText, if_neg (by simp [hblank])]
  have hopens : ∀ c ∈ spelling'.toList, closer? c = none := fun c hc => (plain_of_mem_spelling hspelled hc).2.2
  -- the next key ends the value
  have hends : spelling'.toList <+: mask (joined separator (.modifier key' spelling' value :: rest)) := by
    have htext : joined separator (.modifier key' spelling' value :: rest) =
        spelling'.toList ++ (value ++ separated separator rest) := List.append_assoc ..
    rw [htext, mask_append (openAfter_plain hopens), mask_plain hopens]
    exact List.prefix_append ..
  have hall : separated separator (.modifier key' spelling' value :: rest) =
      separator :: ([] ++ joined separator (.modifier key' spelling' value :: rest)) := rfl
  exact finds_separator hseparator hblank hkey hall htaken (fun c hc => absurd hc List.not_mem_nil)
    (.nil (.inr (.inr (.inr ⟨_, List.mem_map_of_mem hspelled, hends⟩)))) hbehind

/-- What the search finds among tokens that fit. -/
theorem finds (hseparator : IsSeparator delimiter separator) :
    ∀ {tokens : List LineToken}, TokensFit separator tokens → Finds delimiter separator tokens
  | [], _ => finds_nil
  | .bare literal :: rest, h => finds_bare hseparator literal (finds hseparator h.tail)
  | [.modifier key spelling value], h => finds_value hseparator h (.inr (.inr rfl)) finds_nil
  | .modifier key spelling (c :: value) :: rest, h =>
    finds_value hseparator h (.inl (List.cons_ne_nil c value)) (finds hseparator h.tail)
  | .modifier key spelling [] :: .bare literal :: rest, h => by
    cases hblank : isBlank separator with
    | true => exact finds_value hseparator h (.inr (.inl hblank)) (finds hseparator h.tail)
    | false => exact finds_separator_bare hseparator hblank h (finds hseparator h.tail.tail)
  | .modifier key spelling [] :: .modifier key' spelling' value :: rest, h => by
    cases hblank : isBlank separator with
    | true => exact finds_value hseparator h (.inr (.inl hblank)) (finds hseparator h.tail)
    | false => exact finds_separator_modifier hseparator hblank h (finds hseparator h.tail)

end SequenceNotation.Notation
