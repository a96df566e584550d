import Mathlib.Data.List.Find
import Mathlib.Tactic.ByContra
import SequenceNotation.Script.Scan
import SequenceNotation.Text.Quoted

/-!
# Lexemes

What the scanner takes from a text, lexeme by lexeme: the equations of its steps, the runs of characters
that a lexeme consists of, and the string literals that quoting a text gives.
-/

namespace SequenceNotation.Script

open SequenceNotation.Number SequenceNotation.Text

/-! ### Runs of characters -/

section

variable {p : Char → Bool}

@[simp] theorem runLength_nil : runLength p [] = 0 := rfl

theorem runLength_cons (c : Char) (rest : List Char) :
    runLength p (c :: rest) = if p c then runLength p rest + 1 else 0 := by
  unfold runLength
  rw [List.takeWhile_cons]
  split <;> simp

theorem runLength_le (text : List Char) : runLength p text ≤ text.length := by
  induction text with
  | nil => simp
  | cons c rest ih =>
    rw [runLength_cons]
    split <;> simp only [List.length_cons] <;> omega

theorem drop_runLength (text : List Char) : text.drop (runLength p text) = text.dropWhile p := by
  induction text with
  | nil => rfl
  | cons c rest ih =>
    rw [runLength_cons, List.dropWhile_cons]
    split
    · rw [List.drop_succ_cons, ih]
    · rfl

theorem take_runLength (text : List Char) : text.take (runLength p text) = text.takeWhile p := by
  induction text with
  | nil => rfl
  | cons c rest ih =>
    rw [runLength_cons, List.takeWhile_cons]
    split
    · rw [List.take_succ_cons, ih]
    · rfl

/-- A run does not go beyond a character that does not belong to it. -/
theorem runLength_append_cons {c : Char} (hc : p c = false) (text tail : List Char) :
    runLength p (text ++ c :: tail) = runLength p text := by
  induction text with
  | nil => simp [runLength_cons, hc]
  | cons d rest ih => rw [List.cons_append, runLength_cons, runLength_cons, ih]

end

/-! ### Lengths -/

theorem stringTail_le (quote : Char) (text : List Char) :
    (stringTail quote text).2 ≤ text.length := by
  fun_induction stringTail quote text with
  | case1 => simp
  | case2 => simp
  | case3 c rest _ closed n h ih => simp only [h] at ih; simp only [List.length_cons]; omega
  | case4 => simp
  | case5 => simp
  | case6 c rest _ _ _ closed n h ih => simp only [h] at ih; simp only [List.length_cons]; omega

theorem hexLength_le (text : List Char) : hexLength text ≤ text.length := by
  match text with
  | [] | [_] => exact Nat.zero_le _
  | _ :: _ :: rest =>
    have h := runLength_le (p := isHexDigit) rest
    simp only [hexLength, List.length_cons]
    split <;> omega

theorem signLength_le (text : List Char) : signLength text ≤ text.length := by
  cases text with
  | nil => simp [signLength]
  | cons c rest => unfold signLength; split <;> simp

theorem exponentLength_le (text : List Char) : exponentLength text ≤ text.length := by
  cases text with
  | nil => simp [exponentLength]
  | cons e rest =>
    have hdigits := runLength_le (p := Char.isDigit) (rest.drop (signLength rest))
    rw [List.length_drop] at hdigits
    simp only [exponentLength, List.length_cons]
    split <;> omega

theorem fractionLength_le (text : List Char) : fractionLength text ≤ text.length := by
  cases text with
  | nil => simp [fractionLength]
  | cons c digits =>
    have h := runLength_le (p := Char.isDigit) digits
    simp only [fractionLength, List.length_cons]
    split <;> omega

theorem mantissaLength_le (text : List Char) : mantissaLength text ≤ text.length := by
  have hwhole := runLength_le (p := Char.isDigit) text
  have hfraction := fractionLength_le (text.drop (runLength Char.isDigit text))
  rw [List.length_drop] at hfraction
  simp only [mantissaLength]
  split <;> omega

theorem decimalLength_le (text : List Char) : decimalLength text ≤ text.length := by
  have hmantissa := mantissaLength_le text
  have hexponent := exponentLength_le (text.drop (mantissaLength text))
  rw [List.length_drop] at hexponent
  simp only [decimalLength]
  split <;> omega

/-- A reserved word stands in the table with its spelling. -/
theorem Keyword.exists_of_ofSpelling? {name : String} {word : Keyword} (h : Keyword.ofSpelling? name = some word) :
    ∃ entry ∈ Keyword.table, entry.2.1 = name ∧ entry.1 = word := by
  obtain ⟨entry, hfind, hword⟩ := Option.map_eq_some_iff.1 h
  have hname : entry.2.1 == name := by
    have := List.find?_some hfind
    exact this
  exact ⟨entry, List.mem_of_find?_eq_some hfind, eq_of_beq hname, hword⟩

/-- A mark stands in the table, and its spelling at the start of the text. -/
theorem Mark.exists_of_atStart? {text : List Char} {mark : Mark} {n : Nat} (h : Mark.atStart? text = some (mark, n)) :
    ∃ entry ∈ Mark.table, entry.1 = mark ∧ n = entry.2.1.toList.length ∧ ∃ back, text = entry.2.1.toList ++ back := by
  obtain ⟨entry, hfind, heq⟩ := Option.map_eq_some_iff.1 h
  obtain ⟨hmark, hlength⟩ := Prod.mk.inj heq
  have hstart : entry.2.1.toList.isPrefixOf text := by
    have := List.find?_some hfind
    exact this
  obtain ⟨back, rfl⟩ := List.isPrefixOf_iff_prefix.1 hstart
  exact ⟨entry, List.mem_of_find?_eq_some hfind, hmark, by rw [← hlength, String.length_toList], back, rfl⟩

theorem Mark.atStart?_le {text : List Char} {mark : Mark} {n : Nat}
    (h : Mark.atStart? text = some (mark, n)) : n ≤ text.length := by
  obtain ⟨entry, -, -, rfl, back, rfl⟩ := Mark.exists_of_atStart? h
  rw [List.length_append]
  exact Nat.le_add_right _ _

theorem numberAt?_le {text : List Char} {lexeme : Lexeme} {n : Nat}
    (h : numberAt? text = some (lexeme, n)) : n ≤ text.length := by
  simp only [numberAt?] at h
  split at h
  · cases h
    exact hexLength_le text
  · split at h
    · cases h
      exact decimalLength_le text
    · cases h

theorem markAt_le (c : Char) (rest : List Char) : (markAt (c :: rest)).2 ≤ rest.length + 1 := by
  unfold markAt
  split
  · rename_i mark n h
    exact Mark.atStart?_le h
  · exact Nat.succ_le_succ (Nat.zero_le _)

/-- A lexeme does not reach beyond the text. -/
theorem lexemeAt_le (c : Char) (rest : List Char) : (lexemeAt c rest).2 ≤ rest.length := by
  unfold lexemeAt
  split
  · exact runLength_le rest
  split
  · exact runLength_le rest
  split
  · exact stringTail_le c rest
  split
  · exact runLength_le rest
  · refine Nat.sub_le_of_le_add ?_
    cases h : numberAt? (c :: rest) with
    | none => exact markAt_le c rest
    | some number => exact numberAt?_le h

/-! ### The kinds of lexemes -/

section

variable {c : Char}

theorem hexLength_eq_zero (hzero : c ≠ '0') (rest : List Char) : hexLength (c :: rest) = 0 := by
  cases rest <;> simp [hexLength, hzero]

theorem decimalLength_eq_zero (hdigit : c.isDigit = false) (hpoint : c ≠ '.') (rest : List Char) :
    decimalLength (c :: rest) = 0 := by
  simp [decimalLength, mantissaLength, runLength_cons, fractionLength, hdigit, hpoint]

theorem numberAt?_eq_none (hdigit : c.isDigit = false) (hpoint : c ≠ '.') (rest : List Char) :
    numberAt? (c :: rest) = none := by
  have hzero : c ≠ '0' := by
    rintro rfl
    exact absurd hdigit (by decide)
  simp [numberAt?, hexLength_eq_zero hzero, decimalLength_eq_zero hdigit hpoint]

theorem decimalLength_pos (hdigit : c.isDigit = true) (rest : List Char) :
    0 < decimalLength (c :: rest) := by
  have hmantissa : 0 < mantissaLength (c :: rest) := by
    simp only [mantissaLength, runLength_cons, hdigit, if_true]
    split <;> omega
  simp only [decimalLength]
  split <;> omega

theorem isDigit_eq_false (rest : List Char) (h : numberAt? (c :: rest) = none) :
    c.isDigit = false := by
  rw [Bool.eq_false_iff]
  intro hdigit
  have hpos := decimalLength_pos hdigit rest
  simp only [numberAt?, if_pos hpos] at h
  split at h <;> cases h

theorem lexemeAt_name (hc : isNameStart c = true) (rest : List Char) :
    lexemeAt c rest =
      (.token (nameToken (String.ofList (c :: rest.take (runLength isNamePart rest)))),
        runLength isNamePart rest) := by
  have hblank : ¬isSourceBlank c = true := by
    intro h
    simp only [isSourceBlank, Bool.or_eq_true, decide_eq_true_eq] at h
    rcases h with (((rfl | rfl) | rfl) | rfl) | rfl <;> exact absurd hc (by decide)
  have hne {d : Char} (hd : isNameStart d = false) : c ≠ d := by
    rintro rfl
    exact absurd hc (by simp [hd])
  unfold lexemeAt
  rw [if_neg hblank, if_neg (fun h => hne (by decide) h.1),
    if_neg (by simp [hne (d := '"') (by decide), hne (d := '\'') (by decide)]), if_pos hc]

theorem exists_digit (hc : c.isDigit = true) : ∃ k : Fin 10, c = Char.ofNat (48 + k) := by
  simp only [Char.isDigit, Bool.and_eq_true, decide_eq_true_eq] at hc
  have hlow : 48 ≤ c.toNat := hc.1
  have hhigh : c.toNat ≤ 57 := hc.2
  refine ⟨⟨c.toNat - 48, by omega⟩, ?_⟩
  have hsum : 48 + (c.toNat - 48) = c.toNat := by omega
  show c = Char.ofNat (48 + (c.toNat - 48))
  rw [hsum, Char.ofNat_toNat]

theorem lexemeAt_number (hc : c.isDigit = true ∨ c = '.') {rest : List Char} {lexeme : Lexeme}
    {n : Nat} (h : numberAt? (c :: rest) = some (lexeme, n)) : lexemeAt c rest = (lexeme, n - 1) := by
  have hother : isSourceBlank c = false ∧ c ≠ '/' ∧ ¬(c = '"' ∨ c = '\'') ∧
      isNameStart c = false := by
    rcases hc with hdigit | rfl
    · obtain ⟨k, rfl⟩ := exists_digit hdigit
      clear h hdigit
      revert k
      decide
    · decide
  obtain ⟨hblank, hslash, hstring, hname⟩ := hother
  unfold lexemeAt
  rw [if_neg (by simp [hblank]), if_neg (fun h => hslash h.1), if_neg hstring,
    if_neg (by simp [hname]), h]
  rfl

/-- Whether a character stands at the start of a mark, if of anything. -/
def isMarkStart (c : Char) : Bool :=
  !isSourceBlank c && !(c = '"' || c = '\'') && !isNameStart c && !c.isDigit && c ≠ '.'

theorem lexemeAt_mark (hc : isMarkStart c = true) {rest : List Char}
    (hcomment : ¬(c = '/' ∧ rest.head? = some '/')) :
    lexemeAt c rest = ((markAt (c :: rest)).1, (markAt (c :: rest)).2 - 1) := by
  simp only [isMarkStart, Bool.and_eq_true, Bool.not_eq_true', Bool.or_eq_false_iff,
    decide_eq_false_iff_not, decide_eq_true_eq] at hc
  obtain ⟨⟨⟨⟨hblank, hdouble, hsingle⟩, hname⟩, hdigit⟩, hpoint⟩ := hc
  unfold lexemeAt
  rw [if_neg (by simp [hblank]), if_neg hcomment, if_neg (by simp [hdouble, hsingle]),
    if_neg (by simp [hname]), numberAt?_eq_none hdigit hpoint]
  rfl

end

/-! ### String literals -/

/-- The characters between the quotes of a string literal. -/
inductive StringBody (quote : Char) : List Char → Prop
  | nil : StringBody quote []
  | plain {c : Char} {body : List Char} (hc : c ≠ quote) (hback : c ≠ '\\')
    (hbody : StringBody quote body) : StringBody quote (c :: body)
  | escape {c : Char} {body : List Char} (hc : c ≠ '\n')
    (hbody : StringBody quote body) : StringBody quote ('\\' :: c :: body)

theorem stringTail_cons {quote c : Char} (hc : c ≠ quote) (hback : c ≠ '\\') (rest : List Char) :
    stringTail quote (c :: rest) = ((stringTail quote rest).1, (stringTail quote rest).2 + 1) := by
  rw [stringTail.eq_def]
  split <;> simp_all

theorem stringTail_escaped {quote c : Char} (hc : c ≠ '\n') (rest : List Char) :
    stringTail quote ('\\' :: c :: rest) =
      ((stringTail quote rest).1, (stringTail quote rest).2 + 2) := by
  rw [stringTail]
  simp [hc]

theorem stringTail_quote {quote : Char} (hquote : quote ≠ '\\') (rest : List Char) :
    stringTail quote (quote :: rest) = (true, 1) := by
  rw [stringTail.eq_def]
  split <;> simp_all

theorem StringBody.stringTail_append {quote : Char} (hquote : quote ≠ '\\') {body : List Char}
    (h : StringBody quote body) (tail : List Char) :
    stringTail quote (body ++ quote :: tail) = (true, body.length + 1) := by
  induction h with
  | nil => exact stringTail_quote hquote tail
  | plain hc hback _ ih => rw [List.cons_append, stringTail_cons hc hback, ih, List.length_cons]
  | escape hc _ ih =>
    rw [List.cons_append, List.cons_append, stringTail_escaped hc, ih, List.length_cons,
      List.length_cons]

/-- A string literal that is closed consists of its body and the closing quote. -/
theorem exists_stringBody {quote : Char} {text : List Char} {n : Nat}
    (h : stringTail quote text = (true, n)) :
    ∃ body tail, StringBody quote body ∧ text = body ++ quote :: tail ∧ n = body.length + 1 := by
  fun_induction stringTail quote text generalizing n with
  | case1 => cases h
  | case2 => cases h
  | case3 c rest hc closed n' hrec ih =>
    cases h
    obtain ⟨body, tail, hbody, rfl, rfl⟩ := ih hrec
    exact ⟨_, tail, hbody.escape hc, rfl, rfl⟩
  | case4 rest =>
    cases h
    exact ⟨[], rest, .nil, rfl, rfl⟩
  | case5 => cases h
  | case6 c rest _ hc hback closed n' hrec ih =>
    cases h
    obtain ⟨body, tail, hbody, rfl, rfl⟩ := ih hrec
    exact ⟨_, tail, hbody.plain hc hback, rfl, rfl⟩

section

variable {quote : Char} (hquote : quote = '"' ∨ quote = '\'')
include hquote

theorem lexemeAt_quote (rest : List Char) : lexemeAt quote rest = stringAt quote rest := by
  rcases hquote with rfl | rfl <;> rfl

/-- A string literal is one token, whatever follows. -/
theorem lexemeAt_string {body : List Char} (h : StringBody quote body) (tail : List Char) :
    lexemeAt quote (body ++ quote :: tail) =
      (.token (.string (String.ofList (unescape body))), body.length + 1) := by
  have hback : quote ≠ '\\' := by rcases hquote with rfl | rfl <;> decide
  rw [lexemeAt_quote hquote, stringAt, h.stringTail_append hback]
  simp

end

/-- What is known of a text when the scanner takes a lexeme from its start. -/
inductive LexemeView (c : Char) (rest : List Char) : Lexeme → Nat → Prop
  | blank (hc : isSourceBlank c = true) :
    LexemeView c rest .skipped (runLength isSourceBlank rest)
  | comment (hc : c = '/') (hrest : rest.head? = some '/') :
    LexemeView c rest .skipped (runLength (· ≠ '\n') rest)
  | string (hc : c = '"' ∨ c = '\'') {body tail : List Char} (hbody : StringBody c body)
    (hrest : rest = body ++ c :: tail) :
    LexemeView c rest (.token (.string (String.ofList (unescape body)))) (body.length + 1)
  | identifier (hc : isNameStart c = true) {name : String}
    (hname : name.toList = c :: rest.take (runLength isNamePart rest)) :
    LexemeView c rest (.token (.identifier name)) (runLength isNamePart rest)
  | keyword (hc : isNameStart c = true) {word : Keyword}
    (hword : Keyword.ofSpelling? (String.ofList (c :: rest.take (runLength isNamePart rest))) =
      some word) :
    LexemeView c rest (.token (.keyword word)) (runLength isNamePart rest)
  | number (hc : c.isDigit = true ∨ c = '.') {value : Double} {n : Nat}
    (hrest : numberAt? (c :: rest) = some (.token (.number value), n)) :
    LexemeView c rest (.token (.number value)) (n - 1)
  | mark (hc : isMarkStart c = true ∨ c = '.') (hcomment : ¬(c = '/' ∧ rest.head? = some '/'))
    (hnumber : numberAt? (c :: rest) = none) {mark : Mark} {n : Nat}
    (hrest : Mark.atStart? (c :: rest) = some (mark, n)) :
    LexemeView c rest (.token (.mark mark)) (n - 1)
  | unreadable (n : Nat) : LexemeView c rest .unreadable n

theorem numberAt?_numberLexeme {text : List Char} {lexeme : Lexeme} {n : Nat}
    (h : numberAt? text = some (lexeme, n)) : ∃ value, lexeme = numberLexeme value := by
  simp only [numberAt?] at h
  split at h
  · cases h
    exact ⟨_, rfl⟩
  · split at h
    · cases h
      exact ⟨_, rfl⟩
    · cases h

theorem lexemeAt_view (c : Char) (rest : List Char) :
    LexemeView c rest (lexemeAt c rest).1 (lexemeAt c rest).2 := by
  unfold lexemeAt
  split
  · exact .blank ‹_›
  rename_i hblank
  split
  · rename_i hcomment
    exact .comment hcomment.1 hcomment.2
  rename_i hcomment
  split
  · rename_i hstring
    cases hrest : stringTail c rest with
    | mk closed n =>
      cases closed with
      | true =>
        obtain ⟨body, tail, hbody, rfl, rfl⟩ := exists_stringBody hrest
        rw [← lexemeAt_quote hstring, lexemeAt_string hstring hbody]
        exact .string hstring hbody rfl
      | false =>
        rw [stringAt, hrest]
        exact .unreadable n
  rename_i hstring
  split
  · rename_i hname
    dsimp only [nameToken]
    split
    · exact .keyword hname ‹_›
    · exact .identifier hname (String.toList_ofList)
  rename_i hname
  cases hnumber : numberAt? (c :: rest) with
  | some number =>
    obtain ⟨lexeme, n⟩ := number
    obtain ⟨value, rfl⟩ := numberAt?_numberLexeme hnumber
    cases value with
    | none => exact .unreadable _
    | some value =>
      -- a lexeme that reads as a number begins as numbers do
      refine .number ?_ hnumber
      by_contra! hc
      rw [numberAt?_eq_none (by simpa using hc.1) hc.2] at hnumber
      cases hnumber
  | none =>
    dsimp only [Option.getD_none]
    unfold markAt
    split
    · rename_i mark n hrest
      refine .mark ?_ hcomment hnumber hrest
      have hdigit := isDigit_eq_false rest hnumber
      simp_all [isMarkStart, em']
    · exact .unreadable 0

/-- An identifier goes as far as the characters of names. -/
theorem lexemeAt_identifier {c : Char} {rest : List Char} {name : String} {n : Nat}
    (h : lexemeAt c rest = (.token (.identifier name), n)) :
    isNameStart c = true ∧ name.toList = c :: rest.take n ∧ n = runLength isNamePart rest := by
  have hview := lexemeAt_view c rest
  rw [h] at hview
  cases hview with
  | identifier hc hname => exact ⟨hc, hname, rfl⟩

/-! ### Quoted texts -/

/-- A character in a literal stands there itself, or behind a backslash as one that unescapes to it. -/
theorem literalEscape_cases (c : Char) :
    (literalEscape c = [c] ∧ c ≠ '"' ∧ c ≠ '\\' ∧ c ≠ '\n') ∨
      ∃ d, literalEscape c = ['\\', d] ∧ d ≠ '\n' ∧
        ∀ rest, unescape ('\\' :: d :: rest) = c :: unescape rest := by
  unfold literalEscape
  by_cases hquote : c = '"'
  · exact .inr ⟨'"', by simp [hquote], by decide,
      fun rest => by simp [unescape, escapeMeaning, hquote]⟩
  by_cases hback : c = '\\'
  · exact .inr ⟨'\\', by simp [hback], by decide,
      fun rest => by simp [unescape, escapeMeaning, hback]⟩
  by_cases hnewline : c = '\n'
  · exact .inr ⟨'n', by simp [hnewline], by decide,
      fun rest => by simp [unescape, escapeMeaning, hnewline]⟩
  by_cases hreturn : c = '\r'
  · exact .inr ⟨'r', by simp [hreturn], by decide,
      fun rest => by simp [unescape, escapeMeaning, hreturn]⟩
  by_cases htab : c = '\t'
  · exact .inr ⟨'t', by simp [htab], by decide,
      fun rest => by simp [unescape, escapeMeaning, htab]⟩
  · exact .inl ⟨by simp [*], hquote, hback, hnewline⟩

theorem unescape_backslash (c : Char) (rest : List Char) :
    unescape ('\\' :: c :: rest) = escapeMeaning c :: unescape rest := by
  rw [unescape]

theorem unescape_cons {c : Char} (h : c ≠ '\\') (rest : List Char) :
    unescape (c :: rest) = c :: unescape rest := by
  rw [unescape.eq_def]
  split <;> simp_all

/-- Escaping is undone exactly. -/
theorem unescape_escape (text : List Char) : unescape (text.flatMap literalEscape) = text := by
  induction text with
  | nil => rfl
  | cons c rest ih =>
    rw [List.flatMap_cons]
    rcases literalEscape_cases c with ⟨h, -, hback, -⟩ | ⟨d, h, -, hd⟩
    · rw [h, List.singleton_append, unescape_cons hback, ih]
    · rw [h, List.cons_append, List.singleton_append, hd, ih]

/-- Whatever stands in a text, its literal is closed by the last quote. -/
theorem stringBody_escape (text : List Char) : StringBody '"' (text.flatMap literalEscape) := by
  induction text with
  | nil => exact .nil
  | cons c rest ih =>
    rw [List.flatMap_cons]
    rcases literalEscape_cases c with ⟨h, hquote, hback, -⟩ | ⟨d, h, hd, -⟩
    · rw [h]
      exact ih.plain hquote hback
    · rw [h]
      exact ih.escape hd

/-- A quoted text stays within a line. -/
theorem newline_not_mem_literalQuoted (text : List Char) : '\n' ∉ literalQuoted text := by
  have hescape (c : Char) : '\n' ∉ literalEscape c := by
    rcases literalEscape_cases c with ⟨h, -, -, hc⟩ | ⟨d, h, hd, -⟩
    · rw [h, List.mem_singleton]
      exact hc.symm
    · rw [h]
      simpa using hd.symm
  simp [literalQuoted, hescape]

theorem literalQuoted_append (text tail : List Char) :
    literalQuoted text ++ tail = '"' :: (text.flatMap literalEscape ++ '"' :: tail) := by
  simp [literalQuoted]

/-! ### Tokens without their places -/

/-- The tokens of a text without their places; none if some of it cannot be read. -/
def tokensIn (text : List Char) : Option (List Token) :=
  (tokensFrom 0 text).toOption.map (·.map PlacedToken.token)

/-- The tokens of a source without their places; none if some of it cannot be read. -/
def tokensOf (source : String) : Option (List Token) :=
  (tokenize source).toOption.map (·.map PlacedToken.token)

theorem tokensOf_of_tokenize {source : String} {tokens : List PlacedToken} (h : tokenize source = .ok tokens) :
    tokensOf source = some (tokens.map (·.token)) := by
  unfold tokensOf
  rw [h]
  rfl

/-- The tokens of a source with their places. -/
theorem exists_tokenize {source : String} {tokens : List Token} (h : tokensOf source = some tokens) :
    ∃ placed, tokenize source = .ok placed ∧ placed.map (·.token) = tokens := by
  unfold tokensOf at h
  cases hplaced : tokenize source with
  | error fault =>
    rw [hplaced] at h
    cases h
  | ok placed =>
    rw [hplaced] at h
    exact ⟨placed, rfl, Option.some.inj h⟩

/-- A proof about a text in steps of the scanner. -/
theorem lexeme_induction {motive : List Char → Prop} (nil : motive [])
    (cons : ∀ c rest, motive (rest.drop (lexemeAt c rest).2) → motive (c :: rest))
    (text : List Char) : motive text := by
  induction h : text.length using Nat.strongRecOn generalizing text with
  | _ length ih =>
    cases text with
    | nil => exact nil
    | cons c rest =>
      refine cons c rest (ih _ ?_ _ rfl)
      rw [← h, List.length_drop, List.length_cons]
      omega

/-- Where a text begins in the source makes no difference to its tokens. -/
theorem tokens_tokensFrom (offset : Nat) (text : List Char) :
    (tokensFrom offset text).toOption.map (·.map PlacedToken.token) = tokensIn text := by
  unfold tokensIn
  generalize 0 = offset'
  induction text using lexeme_induction generalizing offset offset' with
  | nil => simp [tokensFrom]
  | cons c rest ih =>
    rw [tokensFrom, tokensFrom]
    generalize lexemeAt c rest = taken at ih
    obtain ⟨lexeme, n⟩ := taken
    cases lexeme with
    | skipped => exact ih _ _
    | unreadable => rfl
    | token token =>
      dsimp only at ih ⊢
      have htail := ih (offset + byteLength (c :: rest.take n)) (offset' + byteLength (c :: rest.take n))
      generalize tokensFrom _ _ = tail at htail ⊢
      generalize tokensFrom _ _ = tail' at htail ⊢
      cases tail <;> cases tail' <;> simp_all [Except.toOption]

@[simp] theorem tokensIn_nil : tokensIn [] = some [] := by
  simp [tokensIn, tokensFrom, Except.toOption]

section

variable {c : Char} {rest : List Char} {n : Nat}

theorem tokensIn_skipped (h : lexemeAt c rest = (.skipped, n)) :
    tokensIn (c :: rest) = tokensIn (rest.drop n) := by
  rw [tokensIn, tokensFrom, h]
  exact tokens_tokensFrom _ _

theorem tokensIn_unreadable (h : lexemeAt c rest = (.unreadable, n)) :
    tokensIn (c :: rest) = none := by
  rw [tokensIn, tokensFrom, h]
  rfl

theorem tokensIn_token {token : Token} (h : lexemeAt c rest = (.token token, n)) :
    tokensIn (c :: rest) = (tokensIn (rest.drop n)).map (token :: ·) := by
  rw [tokensIn, tokensFrom, h, ← tokens_tokensFrom (0 + byteLength (c :: rest.take n))]
  dsimp only
  cases tokensFrom (0 + byteLength (c :: rest.take n)) (rest.drop n) <;> rfl

end

theorem tokensIn_string {quote : Char} (hquote : quote = '"' ∨ quote = '\'') {body : List Char}
    (h : StringBody quote body) (tail : List Char) :
    tokensIn (quote :: (body ++ quote :: tail)) =
      (tokensIn tail).map (.string (String.ofList (unescape body)) :: ·) := by
  rw [tokensIn_token (lexemeAt_string hquote h tail), ← List.drop_drop, List.drop_left,
    List.drop_one, List.tail_cons]

theorem tokensIn_unclosed {quote : Char} (hquote : quote = '"' ∨ quote = '\'') {rest : List Char}
    (h : (stringTail quote rest).1 = false) : tokensIn (quote :: rest) = none := by
  cases hrest : stringTail quote rest with
  | mk closed n =>
    rw [hrest] at h
    refine tokensIn_unreadable (n := n) ?_
    rw [lexemeAt_quote hquote, stringAt, hrest]
    simpa using h

/-- A quoted text is one token, the text itself, whatever follows. -/
theorem tokensIn_literalQuoted (text tail : List Char) :
    tokensIn (literalQuoted text ++ tail) =
      (tokensIn tail).map (.string (String.ofList text) :: ·) := by
  rw [literalQuoted_append, tokensIn_string (.inl rfl) (stringBody_escape text), unescape_escape]

/-- A comment ends before the next line. -/
theorem tokensIn_comment {rest : List Char} (h : rest.head? = some '/') :
    tokensIn ('/' :: rest) = tokensIn (rest.dropWhile (· ≠ '\n')) := by
  rw [← drop_runLength]
  refine tokensIn_skipped ?_
  unfold lexemeAt
  rw [if_neg (by decide), if_pos ⟨rfl, h⟩]

/-! ### Tokens with what follows them -/

/-- The tokens of a text, each with the character that follows it. -/
inductive ReadAs : List Char → List (Token × Option Char) → Prop
  | nil : ReadAs [] []
  | skipped {c : Char} {rest : List Char} {n : Nat} {tokens : List (Token × Option Char)}
    (h : lexemeAt c rest = (.skipped, n)) (hrest : ReadAs (rest.drop n) tokens) :
    ReadAs (c :: rest) tokens
  | token {c : Char} {rest : List Char} {n : Nat} {token : Token}
    {tokens : List (Token × Option Char)} (h : lexemeAt c rest = (.token token, n))
    (hrest : ReadAs (rest.drop n) tokens) :
    ReadAs (c :: rest) ((token, (rest.drop n).head?) :: tokens)

theorem ReadAs.token_inv {c : Char} {rest : List Char} {n : Nat} {token : Token}
    {tokens : List (Token × Option Char)} (h : ReadAs (c :: rest) tokens)
    (hlexeme : lexemeAt c rest = (.token token, n)) :
    ∃ tokens', tokens = (token, (rest.drop n).head?) :: tokens' ∧ ReadAs (rest.drop n) tokens' := by
  cases h with
  | skipped h' =>
    rw [hlexeme] at h'
    cases h'
  | token h' hrest =>
    rw [hlexeme] at h'
    cases h'
    exact ⟨_, rfl, hrest⟩

/-- The tokens of a source with the characters that follow them. -/
def followedTokens (source : String) (tokens : List PlacedToken) : List (Token × Option Char) :=
  tokens.map fun placed => (placed.token, (splitAtByte placed.stop source.toList).2.head?)

/-- The places of the tokens tell what follows them. -/
theorem readAs_tokensFrom (front text : List Char) {tokens : List PlacedToken}
    (h : tokensFrom (byteLength front) text = .ok tokens) :
    ReadAs text (followedTokens (String.ofList (front ++ text)) tokens) := by
  induction text using lexeme_induction generalizing front tokens with
  | nil =>
    rw [tokensFrom] at h
    cases h
    exact .nil
  | cons c rest ih =>
    rw [tokensFrom] at h
    cases hlexeme : lexemeAt c rest with
    | mk lexeme n =>
      rw [hlexeme] at h ih
      have hsplit : front ++ c :: rest = (front ++ c :: rest.take n) ++ rest.drop n := by
        rw [List.append_assoc, List.cons_append, List.take_append_drop]
      have hrest {tokens : List PlacedToken}
          (h : tokensFrom (byteLength front + byteLength (c :: rest.take n)) (rest.drop n) =
            .ok tokens) :
          ReadAs (rest.drop n) (followedTokens (String.ofList (front ++ c :: rest)) tokens) := by
        rw [hsplit]
        refine ih _ ?_
        rwa [byteLength_append]
      -- the text of the lexeme is now in front, so the places go on from its end
      cases lexeme with
      | skipped => exact .skipped hlexeme (hrest h)
      | unreadable => cases h
      | token token =>
        dsimp only at h
        split at h
        · rename_i tokens' htokens
          cases h
          have hfollower : (splitAtByte (byteLength front + byteLength (c :: rest.take n))
              (front ++ c :: rest)).2 = rest.drop n := by
            rw [hsplit, ← byteLength_append, splitAtByte_byteLength]
          simp only [followedTokens, List.map_cons, String.toList_ofList, hfollower]
          exact .token hlexeme (by simpa [followedTokens] using hrest htokens)
        · cases h

theorem readAs_tokenize {source : String} {tokens : List PlacedToken}
    (h : tokenize source = .ok tokens) : ReadAs source.toList (followedTokens source tokens) := by
  have hread := readAs_tokensFrom [] source.toList h
  rwa [List.nil_append, String.ofList_toList] at hread

end SequenceNotation.Script
