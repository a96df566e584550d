import SequenceNotation.Proofs.Notation.KeyByKey
import SequenceNotation.Proofs.Notation.SeparatedLines

/-!
# A delimiter in place of blanks

A line with blanks between its tokens, and the same line with the user's delimiter in their place.  Both have the same
start, and the modifiers that have values agree.  Not so two things: only blanks set off a step outside of all
modifiers, and a modifier without a value takes the delimiter behind it for one.
-/

namespace SequenceNotation.Notation

open SequenceNotation.Text SequenceNotation.Pattern SequenceNotation.Number

/-- A mark that may separate tokens in place of blanks. -/
structure IsDelimiter (c : Char) : Prop where
  not_blank : isBlank c = false
  not_lower : c.isLower = false
  not_digit : CharClass.digit.holds c = false
  not_sign : signClass.holds c = false
  not_opener : c ∉ openers
  not_key : c ∉ keyMarks
  not_filler : c ≠ filler

variable {d : Char}

/-- The delimiter of one character. -/
def delimiterOf (c : Char) : Option String :=
  some (String.ofList [c])

theorem IsDelimiter.isSeparator (h : IsDelimiter d) : IsSeparator (delimiterOf d) d where
  ends := .inr (by rw [delimiterOf, delimiterWord?_cons]; simp [withoutBlanks, h.not_blank])
  opens_none := closer?_eq_none h.not_opener
  not_key := fun spelled hspelled hmem => by
    rcases mem_spelling hspelled hmem with hlower | hmark
    · rw [h.not_lower] at hlower
      cases hlower
    · exact h.not_key hmark
  not_lower := h.not_lower
  not_filler := h.not_filler

/-- What fits between delimiters fits between spaces. -/
theorem TokensFit.space {tokens : List LineToken} (h : TokensFit d tokens) : TokensFit ' ' tokens where
  fits token htoken :=
    { clean := fun c hc => ⟨((h.fits token htoken).clean c hc).1, by
        rintro rfl
        exact absurd ((h.fits token htoken).clean ' ' hc).1 (by decide)⟩
      spelled := (h.fits token htoken).spelled }
  closed := h.closed

theorem LineFits.space {start : List Char} {tokens : List LineToken} (h : LineFits d start tokens) :
    LineFits ' ' start tokens where
  start_ne_nil := h.start_ne_nil
  start_clean c hc := ⟨(h.start_clean c hc).1, by
    rintro rfl
    exact absurd (h.start_clean ' ' hc).1 (by decide)⟩
  start_whole := h.start_whole
  start_closed := h.start_closed
  tokens_fit := h.tokens_fit.space

/-! ### What is written -/

/-- The value of the first modifier with a key among tokens, and the tokens behind it. -/
def firstAt? (key : ModifierKey) : List LineToken → Option (List Char × List LineToken)
  | [] => none
  | .bare _ :: rest => firstAt? key rest
  | .modifier own _ value :: rest => if own = key then some (value, rest) else firstAt? key rest

theorem firstValue?_foundIn (separator : Char) (tokens : List LineToken) (key : ModifierKey) :
    Modifiers.firstValue? (foundIn separator tokens) key =
      (firstAt? key tokens).map fun (value, rest) => unquote (trim (valueText separator value rest)) := by
  induction tokens with
  | nil => rfl
  | cons token rest ih =>
    cases token with
    | bare literal => exact ih
    | modifier own spelling value =>
      by_cases hkey : own = key
      · simp [Modifiers.firstValue?, foundIn, firstAt?, hkey]
      · simpa [Modifiers.firstValue?, foundIn, firstAt?, hkey] using ih

theorem any_foundIn (separator : Char) (tokens : List LineToken) :
    (foundIn separator tokens).any (·.key = .step) = (firstAt? .step tokens).isSome := by
  induction tokens with
  | nil => rfl
  | cons token rest ih =>
    cases token with
    | bare literal => exact ih
    | modifier own spelling value =>
      by_cases hkey : own = .step
      · simp [foundIn, firstAt?, hkey]
      · simpa [foundIn, firstAt?, hkey] using ih

/-- The modifiers that the keys among tokens set. -/
def keyed (settings : Settings) (separator : Char) (tokens : List LineToken) : Modifiers :=
  ((Modifiers.ofSettings settings).applyAll (Segments.ofDelimiter none) [] (foundIn separator tokens)).value

theorem IsDelimiter.beginsNoNumber (h : IsDelimiter d) (rest : List Char) : BeginsNoNumber (d :: rest) :=
  ⟨h.not_digit, h.not_sign⟩

/-- A text that begins with a delimiter holds no step. -/
theorem IsDelimiter.applyBareStep_eq (h : IsDelimiter d) {outside : List Char}
    (houtside : outside = [] ∨ outside.head? = some d) (modifiers : Modifiers) (written : List WrittenModifier) :
    (modifiers.applyBareStep (Segments.ofDelimiter (delimiterOf d)) written outside).value = modifiers := by
  rw [Modifiers.applyBareStep]
  split
  · rfl
  · rcases houtside with rfl | hhead
    · rfl
    · obtain ⟨rest, rfl⟩ := List.head?_eq_some_iff.1 hhead
      have htrim : trimLeft (d :: rest) = d :: rest := trimLeft_of_head h.not_blank
      have hword : firstWord? (d :: rest) = some (d :: rest.takeWhile fun c => !isBlank c) := by
        rw [firstWord?, htrim, List.takeWhile_cons_of_pos (by rw [h.not_blank]; rfl)]
      rw [hword]
      exact modifiers.apply_unread _ (by decide) (h.beginsNoNumber _)

/-- With a delimiter only keys set modifiers. -/
theorem extract_delimiters (hd : IsDelimiter d) {tokens : List LineToken} (h : TokensFit d tokens)
    (settings : Settings) :
    (Modifiers.extract (Segments.ofDelimiter (delimiterOf d)) settings (String.ofList (separated d tokens))).value =
      keyed settings d tokens := by
  obtain ⟨outside, hfound, -, houtside⟩ := (finds hd.isSeparator h).separated hd.isSeparator
  have hbare := hd.applyBareStep_eq (houtside.imp And.right id)
  rw [Modifiers.extract, String.toList_ofList, hfound]
  simp only [Logged.value_bind, Logged.value_pure, hbare, Modifiers.applyAll_fixed (delimiterOf d) none]
  rfl

/-- Modifiers with the first step outside of all modifiers, if no key sets one. -/
def withBareStep (tokens : List LineToken) (modifiers : Modifiers) : Modifiers :=
  match firstAt? .step tokens, firstBare? tokens with
  | none, some literal => { modifiers with step := literal.value, dateUnit := none }
  | _, _ => modifiers

/-- With spaces a step outside of all modifiers counts too. -/
theorem extract_spaces {tokens : List LineToken} (h : TokensFit ' ' tokens) (settings : Settings) :
    (Modifiers.extract (Segments.ofDelimiter none) settings (String.ofList (separated ' ' tokens))).value =
      withBareStep tokens (keyed settings ' ' tokens) := by
  obtain ⟨outside, hfound, hword, -⟩ := (finds isSeparator_space h).separated isSeparator_space
  have hbare (modifiers : Modifiers) :
      (modifiers.applyBareStep (Segments.ofDelimiter none) (foundIn ' ' tokens) outside).value =
        withBareStep tokens modifiers := by
    rw [Modifiers.applyBareStep, any_foundIn, hword (by decide), withBareStep]
    cases firstAt? .step tokens with
    | some found => rfl
    | none =>
      cases firstBare? tokens with
      | none => rfl
      | some literal => exact setStep_decimal none modifiers literal
  rw [Modifiers.extract, String.toList_ofList, hfound]
  simp only [Logged.value_bind, Logged.value_pure, hbare]
  rfl

/-! ### Key by key -/

/-- The keys whose values are texts. -/
def textKeys : List ModifierKey :=
  [.format, .expression, .stop, .options]

/-- The first modifier with a key has no value, and a token follows. -/
def EmptyInside (key : ModifierKey) (tokens : List LineToken) : Prop :=
  ∃ token rest, firstAt? key tokens = some ([], token :: rest)

theorem valueText_space (value : List Char) (rest : List LineToken) : valueText ' ' value rest = value :=
  if_pos (.inr (by decide))

/-- A delimiter taken for a value is kept. -/
theorem IsDelimiter.unquote_trim (hd : IsDelimiter d) {token : List Char} (h : ∀ c ∈ token, isBlank c = false) :
    unquote (trim (d :: token)) = d :: token := by
  have hclean : ∀ c ∈ d :: token, isBlank c = false := List.forall_mem_cons.2 ⟨hd.not_blank, h⟩
  rw [trim_of_forall hclean]
  refine unquote_eq_self fun quote inner hquote heq => ?_
  have hopens := hd.isSeparator.opens_none
  rw [(List.cons.inj heq).1, closer?, if_pos hquote] at hopens
  cases hopens

/-- With a delimiter a value is what it is with spaces; but one that is empty inside of the line begins with the
delimiter. -/
theorem IsDelimiter.firstValue?_cases (hd : IsDelimiter d) (key : ModifierKey) (tokens : List LineToken) :
    (¬ EmptyInside key tokens ∧
        Modifiers.firstValue? (foundIn d tokens) key = Modifiers.firstValue? (foundIn ' ' tokens) key) ∨
      (EmptyInside key tokens ∧ Modifiers.firstValue? (foundIn ' ' tokens) key = some [] ∧
        ∃ token, Modifiers.firstValue? (foundIn d tokens) key = some (d :: token)) := by
  rw [firstValue?_foundIn, firstValue?_foundIn]
  unfold EmptyInside
  cases firstAt? key tokens with
  | none => exact .inl ⟨fun ⟨_, _, h⟩ => (by cases h), rfl⟩
  | some found =>
    obtain ⟨value, rest⟩ := found
    simp only [Option.map_some, valueText_space]
    cases value with
    | cons c value =>
      have htext : valueText d (c :: value) rest = c :: value := if_pos (.inl (List.cons_ne_nil c value))
      exact .inl ⟨fun ⟨_, _, h⟩ => (by cases h), by rw [htext]⟩
    | nil =>
      have hblank : ¬ (([] : List Char) ≠ [] ∨ isBlank d = true) := by simp [hd.not_blank]
      cases rest with
      | nil =>
        refine .inl ⟨fun ⟨_, _, h⟩ => (by cases h), ?_⟩
        rw [valueText, if_neg hblank]
      | cons token rest =>
        -- Here the next delimiter is taken into the value, with what it can quote of the next token.
        refine .inr ⟨⟨token, rest, rfl⟩, rfl, ?_⟩
        cases token with
        | bare literal =>
          rw [valueText, if_neg hblank]
          exact ⟨literal.text, congrArg some (hd.unquote_trim fun c hc => (isPlain_decimal literal c hc).2.2)⟩
        | modifier own spelling value =>
          rw [valueText, if_neg hblank]
          exact ⟨[], congrArg some (hd.unquote_trim fun c hc => absurd hc List.not_mem_nil)⟩

/-- A key says the same with a delimiter and with spaces, unless its text is missing in front of another token. -/
theorem setting_keyed_iff (hd : IsDelimiter d) (tokens : List LineToken) (settings : Settings) (key : ModifierKey) :
    key.setting (keyed settings d tokens) = key.setting (keyed settings ' ' tokens) ↔
      (key ∈ textKeys → ¬ EmptyInside key tokens) := by
  rw [keyed, keyed, Modifiers.setting_applyAll List.not_mem_nil, Modifiers.setting_applyAll List.not_mem_nil]
  rcases hd.firstValue?_cases key tokens with ⟨hvalued, hsame⟩ | ⟨hempty, hspace, token, hdelimiter⟩
  · rw [hsame]
    exact iff_of_true rfl fun _ => hvalued
  · rw [hspace, hdelimiter]
    have hunread : BeginsNoNumber [] := ⟨rfl, rfl⟩
    cases key with
    | step | frequency | startover | repetition =>
      refine iff_of_true ?_ fun hmem => absurd hmem (by decide)
      rw [Modifiers.applyValue?, Modifiers.apply_unread none _ (by decide) (hd.beginsNoNumber token),
        Modifiers.applyValue?, Modifiers.apply_unread none _ (by decide) hunread]
    | format => exact iff_of_false (fun heq => by cases heq) fun hnot => hnot (by decide) hempty
    | expression | stop | options =>
      refine iff_of_false (fun heq => ?_) fun hnot => hnot (by decide) hempty
      have htexts : String.ofList (d :: token) = String.ofList [] := heq
      exact absurd (String.ofList_injective htexts) (List.cons_ne_nil d token)

theorem keyed_eq_iff (hd : IsDelimiter d) (tokens : List LineToken) (settings : Settings) :
    keyed settings d tokens = keyed settings ' ' tokens ↔ ∀ key ∈ textKeys, ¬ EmptyInside key tokens :=
  Modifiers.eq_iff_setting.trans (forall_congr' (setting_keyed_iff hd tokens settings))

/-- Without a key for the step it is that of the settings. -/
theorem keyed_step {tokens : List LineToken} (h : firstAt? .step tokens = none) (settings : Settings)
    (separator : Char) :
    (keyed settings separator tokens).step = settings.step ∧ (keyed settings separator tokens).dateUnit = none := by
  have hsetting : ModifierKey.step.setting (keyed settings separator tokens) = (settings.step, none) := by
    rw [keyed, Modifiers.setting_applyAll List.not_mem_nil, firstValue?_foundIn, h]
    rfl
  exact Prod.mk.inj hsetting

/-! ### The whole line -/

/-- The start of a line and its modifiers. -/
def readLine (delimiter : Option String) (settings : Settings) (line : List Char) : Start × Modifiers :=
  let classified := classify (Segments.ofDelimiter delimiter) settings.start (String.ofList line)
  (classified.start, (Modifiers.extract (Segments.ofDelimiter delimiter) settings classified.remainder).value)

/-- A text with another character in place of its spaces. -/
def replaceSpaces (c : Char) (text : List Char) : List Char :=
  text.map fun own => if own = ' ' then c else own

theorem replaceSpaces_eq_self {text : List Char} (h : ∀ c ∈ text, c ≠ ' ') : replaceSpaces d text = text :=
  (List.map_congr_left fun c hc => if_neg (h c hc)).trans (List.map_id' text)

theorem replaceSpaces_separated {tokens : List LineToken} (h : TokensFit ' ' tokens) :
    replaceSpaces d (separated ' ' tokens) = separated d tokens := by
  induction tokens with
  | nil => rfl
  | cons token rest ih =>
    have htoken : replaceSpaces d token.text = token.text :=
      replaceSpaces_eq_self fun c hc => ((h.fits token List.mem_cons_self).clean c hc).2
    have hrest : separated ' ' (token :: rest) = ' ' :: (token.text ++ separated ' ' rest) := rfl
    rw [hrest, replaceSpaces, List.map_cons, List.map_append, if_pos rfl]
    exact congrArg (d :: ·) (congrArg₂ (· ++ ·) htoken (ih h.tail))

theorem replaceSpaces_line {start : List Char} {tokens : List LineToken} (h : LineFits ' ' start tokens) :
    replaceSpaces d (start ++ separated ' ' tokens) = start ++ separated d tokens := by
  rw [replaceSpaces, List.map_append]
  exact congrArg₂ (· ++ ·) (replaceSpaces_eq_self fun c hc => (h.start_clean c hc).2)
    (replaceSpaces_separated h.tokens_fit)

theorem readLine_delimiters (hd : IsDelimiter d) {start : List Char} {tokens : List LineToken}
    (h : LineFits d start tokens) (settings : Settings) :
    readLine (delimiterOf d) settings (replaceSpaces d (start ++ separated ' ' tokens)) =
      ((classify (Segments.ofDelimiter none) settings.start (String.ofList start)).start, keyed settings d tokens) := by
  have hfiller : ∀ text ∈ delimiterOf d, filler ∉ text.toList := by
    rintro text ⟨⟩
    rw [String.toList_ofList, List.mem_singleton]
    exact fun heq => hd.not_filler heq.symm
  rw [replaceSpaces_line h.space, readLine, h.classify_eq hd.isSeparator hfiller]
  simp only [extract_delimiters hd h.tokens_fit]

theorem readLine_spaces {start : List Char} {tokens : List LineToken} (h : LineFits ' ' start tokens)
    (settings : Settings) :
    readLine none settings (start ++ separated ' ' tokens) =
      ((classify (Segments.ofDelimiter none) settings.start (String.ofList start)).start,
        withBareStep tokens (keyed settings ' ' tokens)) := by
  rw [readLine, h.classify_eq isSeparator_space filler_not_mem_none]
  simp only [extract_spaces h.tokens_fit]

/-- With a delimiter in place of the spaces a line has the same start; and it has the same modifiers if and only if a
step outside of all modifiers says nothing new, and no text is missing in front of another token. -/
theorem delimiter_separates_iff (hd : IsDelimiter d) {start : List Char} {tokens : List LineToken}
    (h : LineFits d start tokens) (settings : Settings) :
    (readLine (delimiterOf d) settings (replaceSpaces d (start ++ separated ' ' tokens))).1 =
        (readLine none settings (start ++ separated ' ' tokens)).1 ∧
      ((readLine (delimiterOf d) settings (replaceSpaces d (start ++ separated ' ' tokens))).2 =
          (readLine none settings (start ++ separated ' ' tokens)).2 ↔
        (∀ literal, firstBare? tokens = some literal → firstAt? .step tokens = none →
            literal.value = settings.step) ∧
          ∀ key ∈ textKeys, ¬ EmptyInside key tokens) := by
  rw [readLine_delimiters hd h, readLine_spaces h.space]
  refine ⟨rfl, ?_⟩
  rw [withBareStep]
  cases hfirst : firstAt? .step tokens with
  | some found => simp [keyed_eq_iff hd]
  | none =>
    cases hbare : firstBare? tokens with
    | none => simp [keyed_eq_iff hd]
    | some literal =>
      obtain ⟨hstep, hunit⟩ := keyed_step hfirst settings ' '
      have hsame : { keyed settings ' ' tokens with step := settings.step, dateUnit := none } =
          keyed settings ' ' tokens := by
        rw [← hstep, ← hunit]
      dsimp only
      constructor
      · intro heq
        have hvalue : literal.value = settings.step :=
          (congrArg Modifiers.step heq).symm.trans (keyed_step hfirst settings d).1
        rw [hvalue, hsame] at heq
        exact ⟨fun other hother _ => by cases hother; exact hvalue, (keyed_eq_iff hd tokens settings).1 heq⟩
      · rintro ⟨hvalue, hempty⟩
        rw [hvalue literal rfl rfl, hsame]
        exact (keyed_eq_iff hd tokens settings).2 hempty

theorem isDelimiter_comma : IsDelimiter ',' where
  not_blank := by decide
  not_lower := by decide
  not_digit := by decide
  not_sign := by decide
  not_opener := by decide
  not_key := by decide
  not_filler := by decide

/-- Digits are a start, of which no mark has one. -/
theorem start_whole_of_digits {start : List Char} (hdigits : ∀ c ∈ start, c.isDigit) (defaultStart : String) :
    (classify (Segments.ofDelimiter none) defaultStart (String.ofList start)).remainder = "" := by
  have hmarks : ∀ mark ∈ StartMark.all, ∀ word ∈ mark.words.map String.toList, word.any (!·.isDigit) := by
    decide
  refine start_whole_of_plain (fun c hc => isPlain_of_isDigit (hdigits c hc)) (fun mark hmark word hword hprefix => ?_)
    defaultStart
  obtain ⟨c, hc, hdigit⟩ := List.any_eq_true.1 (hmarks mark hmark word hword)
  rw [hdigits c (List.IsPrefix.subset hprefix hc)] at hdigit
  cases hdigit

/-- A modifier fits whose value stands alone. -/
theorem tokenFits_modifier {key : ModifierKey} {spelling : String} {value : List Char}
    (hkey : spelling ∈ key.spellings) (hvalue : StandsAlone value)
    (hclean : ∀ c ∈ spelling.toList ++ value, isBlank c = false ∧ c ≠ d) :
    TokenFits d (.modifier key spelling value) where
  clean := hclean
  spelled := by
    rintro _ _ _ ⟨⟩
    have hlength := hvalue.valueLength_eq (.inl rfl)
    rw [List.append_nil] at hlength
    refine ⟨hkey, hlength, fun _ hhash => ?_⟩
    exact (hvalue.head '#' hhash).2 rfl

/-- Every second value, with an expression in quotes that holds a key, and an option. -/
def pairsSourceOption : List LineToken :=
  [.modifier .frequency "*" ['2'], .modifier .expression "::" ['\'', '_', '*', '2', '\''],
   .modifier .options "opt:" ['i']]

theorem lineFits_pairsSourceOption : LineFits ',' ['1', '0'] pairsSourceOption where
  start_ne_nil := by decide
  start_clean := forall_of_all (by decide)
  start_whole := start_whole_of_digits (forall_of_all (by decide))
  start_closed := fun _ => openAfter_plain (forall_of_all (by decide))
  tokens_fit :=
    { fits := by
        have hquoted := QuotedText.standsAlone
          { quote := '\'', text := ['_', '*', '2'], isQuote_quote := by decide, plain := forall_of_all (by decide) }
        refine List.forall_mem_cons.2 ⟨?_, List.forall_mem_cons.2 ⟨?_, List.forall_mem_singleton.2 ?_⟩⟩
        · exact tokenFits_modifier (by decide) (standsAlone_of_plain (forall_of_all (by decide)))
            (forall_of_all (by decide))
        · exact tokenFits_modifier (by decide) hquoted (forall_of_all (by decide))
        · exact tokenFits_modifier (by decide) (standsAlone_of_plain (forall_of_all (by decide)))
            (forall_of_all (by decide))
      closed := by decide }

theorem delimiter_separates_pairs_source_option :
    IsDelimiter ',' ∧ LineFits ',' ['1', '0'] pairsSourceOption ∧
      readLine (some ",") {} "10,*2,::'_*2',opt:i".toList = readLine none {} "10 *2 ::'_*2' opt:i".toList := by
  have hagree := delimiter_separates_iff isDelimiter_comma lineFits_pairsSourceOption {}
  have hspaces : "10 *2 ::'_*2' opt:i".toList = ['1', '0'] ++ separated ' ' pairsSourceOption := by decide
  have hcommas : "10,*2,::'_*2',opt:i".toList =
      replaceSpaces ',' (['1', '0'] ++ separated ' ' pairsSourceOption) := by
    decide
  have hbare : firstBare? pairsSourceOption = none := rfl
  have hvalued : ∀ key ∈ textKeys, ¬ EmptyInside key pairsSourceOption := by
    simp [textKeys, EmptyInside, pairsSourceOption, firstAt?]
  rw [hspaces, hcommas]
  exact ⟨isDelimiter_comma, lineFits_pairsSourceOption,
    Prod.ext hagree.1 (hagree.2.2 ⟨fun literal hliteral => absurd (hbare.symm.trans hliteral) (by simp), hvalued⟩)⟩

/-- The literal of a step. -/
def five : DecimalLiteral where
  sign := none
  whole := ['5']
  places := none
  sign_eq := by simp
  whole_ne_nil := by simp
  isDigit_whole := forall_of_all (by decide)
  places_ne_nil := by simp
  isDigit_places := by simp

theorem lineFits_five : LineFits ',' ['1'] [.bare five] where
  start_ne_nil := by decide
  start_clean := forall_of_all (by decide)
  start_whole := start_whole_of_digits (forall_of_all (by decide))
  start_closed := fun _ => openAfter_plain (forall_of_all (by decide))
  tokens_fit :=
    { fits := List.forall_mem_singleton.2 { clean := forall_of_all (by decide), spelled := fun _ _ _ h => by cases h }
      closed := fun _ h => by cases h }

/-- A comma in place of the space leaves a step outside of all modifiers unread. -/
theorem comma_hides_bare_step :
    (IsDelimiter ',' ∧ LineFits ',' ['1'] [.bare five]) ∧
      (readLine none {} "1 5".toList).2.step = 5 ∧ (readLine (some ",") {} "1,5".toList).2.step = 1 := by
  have hspaces : "1 5".toList = ['1'] ++ separated ' ' [.bare five] := by decide
  have hcommas : "1,5".toList = replaceSpaces ',' (['1'] ++ separated ' ' [.bare five]) := by decide
  have hread := readLine_delimiters isDelimiter_comma lineFits_five {}
  rw [hspaces, hcommas, readLine_spaces lineFits_five.space]
  refine ⟨⟨isDelimiter_comma, lineFits_five⟩, ?_, ?_⟩
  · decide +kernel
  · exact (congrArg (fun read => read.2.step) hread).trans rfl

end SequenceNotation.Notation
