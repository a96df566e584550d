import Mathlib.Data.List.Forall2
import SequenceNotation.Proofs.Script.Lookahead
import SequenceNotation.Sequence.Substitution

/-!
# The text of a selection inside an expression

Where a placeholder for the text of the selection stands, a source has a hole that a quoted text fills.
What the scanner makes of the filled source depends on the text only if the scanner meets the hole
inside a string literal.  The substitution never leaves a hole there on purpose, but it takes no notice
of comments, so a quote in a comment can make it mistake code for quoted text and quoted text for code.
-/

namespace SequenceNotation.Sequence

open SequenceNotation.Script SequenceNotation.Text

/-! ### Templates -/

/-- A source text with holes for the text of the selection. -/
abbrev Template := List (Option Char)

namespace Template

/-- The source text with a quoted text in every hole. -/
def fill (text : List Char) (template : Template) : List Char :=
  template.flatMap fun
    | some c => [c]
    | none => literalQuoted text

/-- The template from a place of a source on, with all other placeholders replaced. -/
def ofSource (values : PlaceholderValues) : SubstitutionMode → List Char → Template
  | _, [] => []
  | mode, c :: rest =>
    (if mode.placeholder? c rest.head? = some .selected then [none]
      else (replacement values mode c rest.head?).map some) ++
      ofSource values (mode.next c) rest

variable (text : List Char)

@[simp] theorem fill_nil : fill text [] = [] := rfl

@[simp] theorem fill_some (c : Char) (template : Template) :
    fill text (some c :: template) = c :: fill text template := rfl

@[simp] theorem fill_none (template : Template) :
    fill text (none :: template) = literalQuoted text ++ fill text template := rfl

theorem fill_append (template tail : Template) :
    fill text (template ++ tail) = fill text template ++ fill text tail :=
  List.flatMap_append

theorem fill_map_some (visible : List Char) : fill text (visible.map some) = visible := by
  induction visible with
  | nil => rfl
  | cons c rest ih => rw [List.map_cons, fill_some, ih]

/-- Substituting a text that is no number fills it in. -/
theorem substituteFrom_eq_fill (values : PlaceholderValues) {selected : String}
    (hselected : (Value.text selected).numeric? = none) (mode : SubstitutionMode)
    (source : List Char) :
    substituteFrom { values with selected } mode source =
      fill selected.toList (ofSource values mode source) := by
  induction source generalizing mode with
  | nil => rfl
  | cons c rest ih =>
    rw [substituteFrom, ofSource, fill_append, ih]
    congr 1
    unfold replacement
    cases mode.placeholder? c rest.head? with
    | none => rfl
    | some placeholder =>
      by_cases hplaceholder : placeholder = .selected
      · subst hplaceholder
        show literalOf (.text selected) _ = literalQuoted selected.toList ++ []
        simp only [literalOf, hselected, List.append_nil]
        rfl
      · rw [if_neg (by simpa using hplaceholder), fill_map_some]
        cases placeholder <;> first | rfl | exact absurd rfl hplaceholder

/-! ### Holes inside string literals -/

/-- How a string literal goes on behind its opening quote. -/
inductive StringRest where
  | closed (rest : Template)
  | unclosed
  | exposed
  deriving DecidableEq

/-- Reads a string literal.  The quote in front of a text ends a literal in double quotes, unless a
backslash stands before it, and the quotes of the text itself may end one in single quotes. -/
def readString (quote : Char) : Template → StringRest
  | [] => .unclosed
  | none :: _ => .exposed
  | some c :: rest =>
    if c = quote then .closed rest
    else if c = '\\' then
      match rest with
      | [] => .unclosed
      | none :: rest => if quote = '"' then .closed rest else .exposed
      | some d :: rest => if d = '\n' then .unclosed else readString quote rest
    else readString quote rest

theorem readString_length {quote : Char} {template rest : Template}
    (h : readString quote template = .closed rest) : rest.length < template.length := by
  fun_induction readString quote template <;> simp_all <;> omega

/-- The characters in front of the first hole. -/
def visible : Template → List Char
  | some c :: rest => c :: visible rest
  | _ => []

/-- Whether the scanner meets a hole inside a string literal before anything that cannot be read. -/
def exposes : Template → Bool
  | [] => false
  | none :: rest => exposes rest
  | some c :: rest =>
    if c = '/' ∧ rest.head? = some (some '/') then exposes (rest.dropWhile (· ≠ some '\n'))
    else if c = '"' ∨ c = '\'' then
      match _h : readString c rest with
      | .closed rest => exposes rest
      | .unclosed => false
      | .exposed => true
    else
      let (lexeme, n) := lexemeAt c (visible rest)
      if lexeme = .unreadable then false else exposes (rest.drop n)
termination_by template => template.length
decreasing_by
  · simp
  · have := (List.dropWhile_suffix (p := (· ≠ some '\n')) (l := rest)).length_le
    simp only [List.length_cons]
    omega
  · have := readString_length _h
    simp only [List.length_cons]
    omega
  · simp only [List.length_cons, List.length_drop]
    omega

/-! ### What the scanner makes of a filled template -/

theorem eq_visible_append (template : Template) :
    ∃ tail, template = (visible template).map some ++ tail ∧
      (tail = [] ∨ ∃ rest, tail = none :: rest) := by
  induction template with
  | nil => exact ⟨[], rfl, .inl rfl⟩
  | cons head rest ih =>
    cases head with
    | none => exact ⟨none :: rest, rfl, .inr ⟨rest, rfl⟩⟩
    | some c =>
      obtain ⟨tail, hrest, htail⟩ := ih
      refine ⟨tail, ?_, htail⟩
      rw [visible, List.map_cons, List.cons_append, ← hrest]

/-- Outside string literals and comments the scanner takes a lexeme from the characters in front of the
first hole. -/
theorem lexemeAt_fill {c : Char} {rest : Template} (hstring : ¬(c = '"' ∨ c = '\''))
    (hcomment : ¬(c = '/' ∧ rest.head? = some (some '/'))) :
    lexemeAt c (fill text rest) = lexemeAt c (visible rest) ∧
      (fill text rest).drop (lexemeAt c (visible rest)).2 =
        fill text (rest.drop (lexemeAt c (visible rest)).2) := by
  obtain ⟨tail, hrest, htail⟩ := eq_visible_append rest
  have hn := lexemeAt_le c (visible rest)
  have hfill : fill text rest = visible rest ++ fill text tail := by
    conv_lhs => rw [hrest]
    rw [fill_append, fill_map_some]
  have hvisible : ¬(c = '/' ∧ (visible rest).head? = some '/') := by
    rintro ⟨hc, hhead⟩
    refine hcomment ⟨hc, ?_⟩
    rw [hrest, List.head?_append, List.head?_map, hhead]
    rfl
  constructor
  · rw [hfill]
    rcases htail with rfl | ⟨rest', rfl⟩
    · rw [fill_nil, List.append_nil]
    · -- the quote that fills the hole ends every lexeme
      rw [fill_none, literalQuoted, List.cons_append, List.cons_append]
      exact lexemeAt_append_stop (.inl rfl) _ _ hstring hvisible
  · generalize (lexemeAt c (visible rest)).2 = n at hn
    have hn' : n ≤ ((visible rest).map some).length := by rwa [List.length_map]
    have hdrop : rest.drop n = ((visible rest).drop n).map some ++ tail := by
      conv_lhs => rw [hrest]
      rw [List.drop_append_of_le_length hn', List.map_drop]
    rw [hfill, List.drop_append_of_le_length hn, hdrop, fill_append, fill_map_some]

/-- A comment ends where it ends in the template. -/
theorem dropWhile_fill (template : Template) :
    (fill text template).dropWhile (· ≠ '\n') =
      fill text (template.dropWhile (· ≠ some '\n')) := by
  induction template with
  | nil => rfl
  | cons head rest ih =>
    cases head with
    | some c =>
      by_cases hc : c = '\n'
      · simp [hc]
      · simpa [hc] using ih
    | none =>
      have hquoted : ∀ c ∈ literalQuoted text, (c ≠ '\n') := fun c hc h =>
        newline_not_mem_literalQuoted text (h ▸ hc)
      rw [fill_none, List.dropWhile_append_of_pos (by simpa using hquoted), ih]
      simp

/-- A text that ends a string literal it is exposed in, and that cannot be read as code. -/
def breakout : String := "#'#"

/-- What the scanner makes of the characters behind an opening quote, by what the template says. -/
def Reads (quote : Char) (source : List Char) : StringRest → Prop
  | .closed rest => ∃ body, StringBody quote body ∧ source = body ++ quote :: fill text rest
  | .unclosed => (stringTail quote source).1 = false
  | .exposed => text = breakout.toList →
    ∃ body tail, StringBody quote body ∧ source = body ++ quote :: '#' :: tail

variable {text}

theorem Reads.append {quote : Char} {source : List Char} {result : StringRest} (start : List Char)
    (hbody : ∀ {body}, StringBody quote body → StringBody quote (start ++ body))
    (hclosed : (stringTail quote (start ++ source)).1 = (stringTail quote source).1)
    (h : Reads text quote source result) : Reads text quote (start ++ source) result := by
  cases result with
  | closed rest =>
    obtain ⟨body, hstring, rfl⟩ := h
    exact ⟨start ++ body, hbody hstring, (List.append_assoc ..).symm⟩
  | unclosed => exact hclosed.trans h
  | exposed =>
    intro htext
    obtain ⟨body, tail, hstring, rfl⟩ := h htext
    exact ⟨start ++ body, tail, hbody hstring, (List.append_assoc ..).symm⟩

/-- A string literal of a filled template ends where the template says, and where it exposes a hole the
text of the hole can end it. -/
theorem reads_fill (text : List Char) {quote : Char} (hquote : quote = '"' ∨ quote = '\'')
    (template : Template) : Reads text quote (fill text template) (readString quote template) := by
  have hback : quote ≠ '\\' := by rcases hquote with rfl | rfl <;> decide
  fun_induction readString quote template with
  | case1 => rfl
  | case2 tail =>
    -- the text stands between the quotes of its own literal
    rintro rfl
    rcases hquote with rfl | rfl
    · exact ⟨[], _, .nil, rfl⟩
    · exact ⟨['"', '#'], _, .plain (by decide) (by decide) (.plain (by decide) (by decide) .nil), rfl⟩
  | case3 rest => exact ⟨[], .nil, rfl⟩
  | case4 => simp [Reads, stringTail, Ne.symm hback]
  | case5 rest hdouble =>
    -- the backslash escapes the opening quote, and the closing one ends the literal
    subst hdouble
    refine ⟨_, (stringBody_escape text).escape (c := '"') (by decide), ?_⟩
    rw [fill_some, fill_none, literalQuoted_append]
    rfl
  | case6 rest hdouble =>
    -- the backslash escapes the quote in front of the text, and the text has one of the other kind
    rintro rfl
    obtain rfl := hquote.resolve_left hdouble
    exact ⟨['\\', '"', '#'], _, .escape (by decide) (.plain (by decide) (by decide) .nil), rfl⟩
  | case7 rest => simp [Reads, stringTail]
  | case8 d rest hd _ ih =>
    have hclosed : (stringTail quote (['\\', d] ++ fill text rest)).1 =
        (stringTail quote (fill text rest)).1 := by
      rw [List.cons_append, List.singleton_append, stringTail_escaped hd]
    exact ih.append ['\\', d] (.escape hd) hclosed
  | case9 c rest hc hcback ih =>
    have hclosed : (stringTail quote ([c] ++ fill text rest)).1 =
        (stringTail quote (fill text rest)).1 := by
      rw [List.singleton_append, stringTail_cons hc hcback]
    exact ih.append [c] (.plain hc hcback) hclosed

end Template

/-! ### Shapes of tokens -/

/-- Two tokens have the same shape if they are equal or both are texts. -/
inductive SameShape : Token → Token → Prop
  | refl (token : Token) : SameShape token token
  | string (text text' : String) : SameShape (.string text) (.string text')

/-- Two sources have the same shape if neither can be read, or if their tokens have the same shapes one
by one. -/
def SameShapes : Option (List Token) → Option (List Token) → Prop :=
  Option.Rel (List.Forall₂ SameShape)

theorem SameShapes.cons {token token' : Token} {tokens tokens' : Option (List Token)}
    (htoken : SameShape token token') (htokens : SameShapes tokens tokens') :
    SameShapes (tokens.map (token :: ·)) (tokens'.map (token' :: ·)) := by
  cases htokens with
  | none => exact .none
  | some h => exact .some (.cons htoken h)

theorem SameShapes.length_eq {tokens tokens' : Option (List Token)} (h : SameShapes tokens tokens') :
    tokens.map List.length = tokens'.map List.length := by
  cases h with
  | none => rfl
  | some h => exact congrArg some h.length_eq

namespace Template

/-- A comment of a filled template ends where the template says. -/
theorem tokensIn_fill_comment (text : List Char) {rest : Template}
    (h : rest.head? = some (some '/')) :
    tokensIn (fill text (some '/' :: rest)) =
      tokensIn (fill text (rest.dropWhile (· ≠ some '\n'))) := by
  have hhead : (fill text rest).head? = some '/' := by
    obtain ⟨rest', rfl⟩ := List.head?_eq_some_iff.1 h
    rfl
  rw [fill_some, tokensIn_comment hhead, dropWhile_fill]

/-- Where no hole is exposed, the texts in the holes are all that two filled templates differ in. -/
theorem sameShapes_fill {template : Template} (h : exposes template = false) (text text' : List Char) :
    SameShapes (tokensIn (fill text template)) (tokensIn (fill text' template)) := by
  fun_induction exposes template with
  | case1 =>
    rw [fill_nil, fill_nil, tokensIn_nil]
    exact .some .nil
  | case2 rest ih =>
    rw [fill_none, fill_none, tokensIn_literalQuoted, tokensIn_literalQuoted]
    exact (ih h).cons (.string _ _)
  | case3 c rest hcomment ih =>
    obtain ⟨rfl, hhead⟩ := hcomment
    rw [tokensIn_fill_comment text hhead, tokensIn_fill_comment text' hhead]
    exact ih h
  | case4 c rest hcomment hstring rest' hread ih =>
    -- a string literal that ends where the template says may contain the texts
    obtain ⟨body, hbody, hrest⟩ := hread ▸ reads_fill text hstring rest
    obtain ⟨body', hbody', hrest'⟩ := hread ▸ reads_fill text' hstring rest
    rw [fill_some, fill_some, hrest, hrest', tokensIn_string hstring hbody,
      tokensIn_string hstring hbody']
    exact (ih h).cons (.string _ _)
  | case5 c rest hcomment hstring hread =>
    have hfill (text : List Char) : tokensIn (c :: fill text rest) = none := by
      have h := reads_fill text hstring rest
      rw [hread] at h
      exact tokensIn_unclosed hstring h
    rw [fill_some, fill_some, hfill, hfill]
    exact .none
  | case6 => exact absurd h (by decide)
  | case7 c rest hcomment hstring n hlexeme =>
    have hfill (text : List Char) : tokensIn (c :: fill text rest) = none :=
      tokensIn_unreadable ((lexemeAt_fill text hstring hcomment).1.trans hlexeme)
    rw [fill_some, fill_some, hfill, hfill]
    exact .none
  | case8 c rest hcomment hstring lexeme n hlexeme hreadable ih =>
    -- any other lexeme ends in front of the next hole, so it is the same for both texts
    have hsame (text : List Char) : lexemeAt c (fill text rest) = (lexeme, n) :=
      (lexemeAt_fill text hstring hcomment).1.trans hlexeme
    have hdrop (text : List Char) : (fill text rest).drop n = fill text (rest.drop n) := by
      have := (lexemeAt_fill text hstring hcomment).2
      rwa [hlexeme] at this
    rw [fill_some, fill_some]
    cases lexeme with
    | skipped =>
      rw [tokensIn_skipped (hsame text), tokensIn_skipped (hsame text'), hdrop, hdrop]
      exact ih h
    | unreadable => exact absurd rfl hreadable
    | token token =>
      rw [tokensIn_token (hsame text), tokensIn_token (hsame text'), hdrop, hdrop]
      exact (ih h).cons (.refl token)

/-- Where a hole is exposed, not every text can stand in it. -/
theorem tokensIn_fill_breakout {template : Template} (h : exposes template = true) :
    tokensIn (fill breakout.toList template) = none := by
  fun_induction exposes template with
  | case1 => exact absurd h (by decide)
  | case2 rest ih => rw [fill_none, tokensIn_literalQuoted, ih h, Option.map_none]
  | case3 c rest hcomment ih =>
    obtain ⟨rfl, hhead⟩ := hcomment
    rw [tokensIn_fill_comment _ hhead]
    exact ih h
  | case4 c rest hcomment hstring rest' hread ih =>
    obtain ⟨body, hbody, hrest⟩ := hread ▸ reads_fill breakout.toList hstring rest
    rw [fill_some, hrest, tokensIn_string hstring hbody, ih h, Option.map_none]
  | case5 => exact absurd h (by decide)
  | case6 c rest hcomment hstring hread =>
    -- the string literal ends within the text, and a character that begins no lexeme follows
    have hexposed := reads_fill breakout.toList hstring rest
    rw [hread] at hexposed
    obtain ⟨body, tail, hbody, htail⟩ := hexposed rfl
    have hunreadable : lexemeAt '#' tail = (.unreadable, 0) := lexemeAt_mark rfl (by simp)
    rw [fill_some, htail, tokensIn_string hstring hbody, tokensIn_unreadable hunreadable,
      Option.map_none]
  | case7 => exact absurd h (by decide)
  | case8 c rest hcomment hstring lexeme n hlexeme hreadable ih =>
    obtain ⟨hfill, hdrop⟩ := lexemeAt_fill breakout.toList hstring hcomment
    rw [hlexeme] at hfill hdrop
    rw [fill_some]
    cases lexeme with
    | skipped => rw [tokensIn_skipped hfill, hdrop, ih h]
    | unreadable => exact absurd rfl hreadable
    | token token => rw [tokensIn_token hfill, hdrop, ih h, Option.map_none]

end Template

/-! ### Selected text never becomes code -/

/-- A text that an expression sees as text: it does not read as a number. -/
def IsPlainText (text : String) : Prop :=
  (Value.text text).numeric? = none

/-- The tokens of an expression for a selection of the text. -/
def tokensFor (source : String) (values : PlaceholderValues) (selected : String) :
    Option (List Token) :=
  tokensOf (substitute source { values with selected })

/-- Selected text never becomes code: any two texts give tokens of the same shapes. -/
def TextStaysText (source : String) (values : PlaceholderValues) : Prop :=
  ∀ text text', IsPlainText text → IsPlainText text' →
    SameShapes (tokensFor source values text) (tokensFor source values text')

/-- The scanner meets the text of the selection inside a string literal. -/
def Exposes (source : String) (values : PlaceholderValues) : Prop :=
  (Template.ofSource values (.code none) source.toList).exposes = true

theorem tokensFor_eq_fill {source : String} {values : PlaceholderValues} {selected : String}
    (h : IsPlainText selected) :
    tokensFor source values selected =
      tokensIn (Template.fill selected.toList
        (Template.ofSource values (.code none) source.toList)) := by
  rw [← Template.substituteFrom_eq_fill values h]
  show tokensIn (substitute source _).toList = _
  rw [substitute, String.toList_ofList]

/-- Selected text never becomes code, exactly if the scanner does not meet it inside a string literal or
no selection at all leaves a source that can be read. -/
theorem textStaysText_iff (source : String) (values : PlaceholderValues) :
    TextStaysText source values ↔
      (Exposes source values →
        ∀ text, IsPlainText text → tokensFor source values text = none) := by
  have hbreakout : IsPlainText Template.breakout := rfl
  constructor
  · -- the one text that cannot be read there takes all others with it
    intro h hexposes text htext
    have hnone : tokensFor source values Template.breakout = none := by
      rw [tokensFor_eq_fill hbreakout]
      exact Template.tokensIn_fill_breakout hexposes
    have hsame := h text Template.breakout htext hbreakout
    rw [hnone] at hsame
    generalize tokensFor source values text = tokens at hsame ⊢
    cases hsame
    rfl
  · intro h text text' htext htext'
    by_cases hexposes : Exposes source values
    · rw [h hexposes text htext, h hexposes text' htext']
      exact .none
    · rw [tokensFor_eq_fill htext, tokensFor_eq_fill htext']
      exact Template.sameShapes_fill (by simpa [Exposes] using hexposes) _ _

/-- A quote in a comment is one for the substitution only.  Here what it takes for a string literal ends
with the quote that opens one for the scanner, and a text with single quotes becomes code. -/
theorem quote_in_comment_makes_text_code :
    ¬TextStaysText "// '\n' o '" { start := .number 1, step := .number 1, selections := 2 } := by
  intro h
  have hlength := (h "x" "'+(1+1)+'" rfl rfl).length_eq
  revert hlength
  decide +kernel

end SequenceNotation.Sequence
