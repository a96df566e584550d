import SequenceNotation.Proofs.Script.Lexeme
import SequenceNotation.Text.Word

/-!
# How far the scanner looks ahead

A lexeme depends on little of what stands behind it: a name or a number on the next character, a number
without an exponent also on the exponent that may follow, a mark on the marks that follow.  So a lexeme
stays when what stands behind it changes elsewhere.
-/

namespace SequenceNotation.Script

open SequenceNotation.Number SequenceNotation.Text

/-! ### Marks -/

/-- The characters that may follow the first one of a mark. -/
def isMarkTail (c : Char) : Bool :=
  c = '=' || c = '>' || c = '+' || c = '-' || c = '*' || c = '&' || c = '|' || c = '?' || c = '/'

theorem isPrefixOf_takeWhile {spelling : List Char} (h : ∀ c ∈ spelling, isMarkTail c = true)
    (text : List Char) : spelling.isPrefixOf text = spelling.isPrefixOf (text.takeWhile isMarkTail) := by
  rw [Bool.eq_iff_iff, List.isPrefixOf_iff_prefix, List.isPrefixOf_iff_prefix]
  constructor
  · rintro ⟨rest, rfl⟩
    rw [List.takeWhile_append_of_pos h]
    exact List.prefix_append _ _
  · intro hprefix
    exact hprefix.trans (List.takeWhile_prefix _)

theorem Mark.atStart?_lookahead (c : Char) {rest rest' : List Char}
    (h : rest.takeWhile isMarkTail = rest'.takeWhile isMarkTail) :
    Mark.atStart? (c :: rest) = Mark.atStart? (c :: rest') := by
  have hspelling : ∀ entry ∈ Mark.table, entry.2.1.toList.tail.all isMarkTail = true := by decide
  unfold Mark.atStart?
  congr 1
  refine List.find?_congr fun entry hentry => ?_
  have htail := List.all_eq_true.1 (hspelling entry hentry)
  dsimp only
  cases hchars : entry.2.1.toList with
  | nil => rfl
  | cons d spelling =>
    rw [hchars, List.tail_cons] at htail
    rw [List.isPrefixOf, List.isPrefixOf, isPrefixOf_takeWhile htail rest, h,
      ← isPrefixOf_takeWhile htail rest']

/-! ### Reading up to a quote or a closing parenthesis -/

section

variable {stop : Char} (hstop : stop = '"' ∨ stop = ')') (text tail : List Char)

theorem drop_append_stop {n : Nat} (hn : n ≤ text.length) :
    (text ++ stop :: tail).drop n = text.drop n ++ stop :: tail :=
  List.drop_append_of_le_length hn

include hstop

/-- A run that the stop does not continue ends before it. -/
theorem runLength_append_stop {p : Char → Bool} (hquote : p '"' = false) (hparen : p ')' = false) :
    runLength p (text ++ stop :: tail) = runLength p text := by
  rcases hstop with rfl | rfl
  · exact runLength_append_cons hquote text tail
  · exact runLength_append_cons hparen text tail

theorem hexLength_append_stop : hexLength (text ++ stop :: tail) = hexLength text := by
  match text with
  | [] => rcases hstop with rfl | rfl <;> cases tail <;> simp [hexLength]
  | [_] => rcases hstop with rfl | rfl <;> simp [hexLength]
  | _ :: _ :: rest =>
    have hrun := runLength_append_stop hstop rest tail (p := isHexDigit) (by decide) (by decide)
    simp only [List.cons_append, hexLength, hrun]

theorem exponentLength_append_stop :
    exponentLength (text ++ stop :: tail) = exponentLength text := by
  cases text with
  | nil => rcases hstop with rfl | rfl <;> simp [exponentLength, isExponentLetter]
  | cons e rest =>
    have hsign : signLength (rest ++ stop :: tail) = signLength rest := by
      rcases hstop with rfl | rfl <;> cases rest <;> rfl
    simp only [List.cons_append, exponentLength, hsign]
    rw [drop_append_stop rest tail (signLength_le rest),
      runLength_append_stop hstop _ tail (by decide) (by decide)]

theorem fractionLength_append_stop :
    fractionLength (text ++ stop :: tail) = fractionLength text := by
  cases text with
  | nil => rcases hstop with rfl | rfl <;> simp [fractionLength]
  | cons c digits =>
    simp only [List.cons_append, fractionLength]
    rw [runLength_append_stop hstop _ tail (by decide) (by decide)]

theorem decimalLength_append_stop :
    decimalLength (text ++ stop :: tail) = decimalLength text := by
  have hmantissa : mantissaLength (text ++ stop :: tail) = mantissaLength text := by
    simp only [mantissaLength]
    rw [runLength_append_stop hstop _ tail (by decide) (by decide), drop_append_stop text tail (runLength_le text),
      fractionLength_append_stop hstop]
  simp only [decimalLength, hmantissa]
  rw [drop_append_stop text tail (mantissaLength_le text), exponentLength_append_stop hstop]

/-- Neither stop follows the first character of a mark. -/
theorem markAt_append_stop (c : Char) : markAt (c :: (text ++ stop :: tail)) = markAt (c :: text) := by
  have htail : (text ++ stop :: tail).takeWhile isMarkTail = text.takeWhile isMarkTail := by
    rw [← take_runLength, ← take_runLength, runLength_append_stop hstop text tail (by decide) (by decide),
      List.take_append_of_le_length (runLength_le text)]
  unfold markAt
  rw [Mark.atStart?_lookahead c htail]

theorem numberAt?_append_stop : numberAt? (text ++ stop :: tail) = numberAt? text := by
  simp only [numberAt?, hexLength_append_stop hstop, decimalLength_append_stop hstop]
  rw [List.take_append_of_le_length (hexLength_le text), List.take_append_of_le_length (decimalLength_le text)]

/-- A lexeme that neither is a string literal nor a comment ends before the stop. -/
theorem lexemeAt_append_stop {c : Char} (hstring : ¬(c = '"' ∨ c = '\''))
    (hcomment : ¬(c = '/' ∧ text.head? = some '/')) :
    lexemeAt c (text ++ stop :: tail) = lexemeAt c text := by
  have hhead : ¬(c = '/' ∧ (text ++ stop :: tail).head? = some '/') := by
    cases text with
    | nil => rcases hstop with rfl | rfl <;> simp
    | cons d rest => simpa using hcomment
  have hnumber : numberAt? (c :: (text ++ stop :: tail)) = numberAt? (c :: text) :=
    numberAt?_append_stop hstop (c :: text) tail
  unfold lexemeAt
  dsimp only
  rw [if_neg hcomment, if_neg hhead, if_neg hstring, if_neg hstring, markAt_append_stop hstop, hnumber,
    runLength_append_stop hstop text tail (by decide) (by decide),
    runLength_append_stop hstop text tail (by decide) (by decide),
    List.take_append_of_le_length (runLength_le text)]

end

theorem two_lt_hexLength {text : List Char} (h : 0 < hexLength text) : 2 < hexLength text := by
  match text with
  | [] | [_] => exact absurd h (Nat.lt_irrefl 0)
  | _ :: _ :: rest =>
    simp only [hexLength] at h ⊢
    split at h
    · rename_i hhex
      rw [if_pos hhex]
      omega
    · exact absurd h (Nat.lt_irrefl 0)

theorem succ_signLength_lt_exponentLength {e : Char} {rest : List Char}
    (h : 0 < exponentLength (e :: rest)) : 1 + signLength rest < exponentLength (e :: rest) := by
  simp only [exponentLength] at h ⊢
  split at h
  · rename_i hexponent
    rw [if_pos hexponent]
    omega
  · exact absurd h (Nat.lt_irrefl 0)

section

variable {rest rest' : List Char} (hhead : rest'.head? = rest.head?)
include hhead

/-! ### The next character -/

theorem runLength_lookahead {p : Char → Bool} {text : List Char}
    (h : runLength p (text ++ rest) ≤ text.length) :
    runLength p (text ++ rest') = runLength p (text ++ rest) := by
  induction text with
  | nil =>
    cases rest with
    | nil =>
      have : rest' = [] := List.head?_eq_none_iff.1 hhead
      rw [this]
    | cons c tail =>
      -- The run does not reach the rest, so its first character, which is the same in both, ends the run.
      obtain ⟨tail', rfl⟩ := List.head?_eq_some_iff.1 hhead
      rw [List.nil_append, List.nil_append, runLength_cons] at *
      rw [runLength_cons]
      split at h
      · simp at h
      · rename_i hc
        rw [if_neg hc, if_neg hc]
  | cons c text ih =>
    rw [List.cons_append, runLength_cons] at h
    rw [List.cons_append, List.cons_append, runLength_cons, runLength_cons]
    split at h
    · rename_i hc
      rw [if_pos hc, if_pos hc, ih (Nat.le_of_succ_le_succ h)]
    · rename_i hc
      rw [if_neg hc, if_neg hc]

theorem hexLength_lookahead {text : List Char} (hpos : 0 < hexLength (text ++ rest))
    (h : hexLength (text ++ rest) ≤ text.length) :
    hexLength (text ++ rest') = hexLength (text ++ rest) := by
  have htwo := two_lt_hexLength hpos
  match text with
  | [] | [_] =>
    simp only [List.length_cons, List.length_nil] at h
    omega
  | zero :: x :: digits =>
    simp only [List.cons_append, hexLength, List.length_cons] at hpos h ⊢
    split at h
    · rename_i hx
      rw [runLength_lookahead hhead (by omega)]
    · rename_i hx
      rw [if_neg hx] at hpos
      exact absurd hpos (Nat.lt_irrefl 0)

theorem fractionLength_lookahead {text : List Char}
    (h : fractionLength (text ++ rest) ≤ text.length) :
    fractionLength (text ++ rest') = fractionLength (text ++ rest) := by
  cases text with
  | nil =>
    cases rest with
    | nil =>
      have : rest' = [] := List.head?_eq_none_iff.1 hhead
      rw [this]
    | cons c tail =>
      obtain ⟨tail', rfl⟩ := List.head?_eq_some_iff.1 hhead
      simp only [List.nil_append, fractionLength, List.length_nil] at *
      split at h
      · omega
      · rename_i hc
        rw [if_neg hc, if_neg hc]
  | cons c digits =>
    simp only [List.cons_append, fractionLength, List.length_cons] at h ⊢
    split at h
    · rename_i hc
      rw [if_pos hc, if_pos hc, runLength_lookahead hhead (by omega)]
    · rename_i hc
      rw [if_neg hc, if_neg hc]

theorem mantissaLength_lookahead {text : List Char} (htext : text ≠ [])
    (h : mantissaLength (text ++ rest) ≤ text.length) :
    mantissaLength (text ++ rest') = mantissaLength (text ++ rest) := by
  have hlength : 0 < text.length := List.length_pos_iff.2 htext
  simp only [mantissaLength] at h ⊢
  have hwhole : runLength Char.isDigit (text ++ rest) ≤ text.length := by
    split at h <;> omega
  rw [runLength_lookahead hhead hwhole]
  rw [List.drop_append_of_le_length hwhole] at h ⊢
  rw [List.drop_append_of_le_length hwhole]
  have hfraction : fractionLength (text.drop (runLength Char.isDigit (text ++ rest)) ++ rest) ≤
      (text.drop (runLength Char.isDigit (text ++ rest))).length := by
    rw [List.length_drop]
    split at h <;> omega
  rw [fractionLength_lookahead hhead hfraction]

/-- An exponent that has begun is read to its end. -/
theorem exponentLength_lookahead {text : List Char} (hpos : 0 < exponentLength (text ++ rest))
    (h : exponentLength (text ++ rest) ≤ text.length) :
    exponentLength (text ++ rest') = exponentLength (text ++ rest) := by
  match text with
  | [] => exact absurd hpos (Nat.not_lt_of_le h)
  | e :: text =>
    rw [List.cons_append] at hpos h
    have hsign := succ_signLength_lt_exponentLength hpos
    cases text with
    | nil =>
      simp only [List.length_cons, List.length_nil] at h
      omega
    | cons c digits =>
      -- The sign is at the first of these places if anywhere, and the run of digits behind it is read alike.
      have hsame : signLength (c :: digits ++ rest') = signLength (c :: digits ++ rest) := rfl
      have hle : signLength (c :: digits ++ rest) ≤ (c :: digits).length := by
        rw [List.length_cons] at h
        omega
      show exponentLength (e :: (c :: digits ++ rest')) = exponentLength (e :: (c :: digits ++ rest))
      simp only [exponentLength, hsame] at hpos h ⊢
      rw [List.drop_append_of_le_length hle] at hpos h ⊢
      rw [List.drop_append_of_le_length hle]
      split at h
      · rename_i hexponent
        have hrun : runLength Char.isDigit ((c :: digits).drop (signLength (c :: digits ++ rest)) ++ rest) ≤
            ((c :: digits).drop (signLength (c :: digits ++ rest))).length := by
          rw [List.length_drop]
          rw [List.length_cons] at h
          omega
        rw [runLength_lookahead hhead hrun]
      · rename_i hnone
        rw [if_neg hnone] at hpos
        exact absurd hpos (Nat.lt_irrefl 0)

/-- A decimal literal stays if it gets no exponent. -/
theorem decimalLength_lookahead {text : List Char} (htext : text ≠ [])
    (h : decimalLength (text ++ rest) = text.length)
    (hexponent : mantissaLength (text ++ rest) = text.length → exponentLength rest' = 0) :
    decimalLength (text ++ rest') = decimalLength (text ++ rest) := by
  have hlength : 0 < text.length := List.length_pos_iff.2 htext
  simp only [decimalLength] at h ⊢
  have hle : mantissaLength (text ++ rest) ≤ text.length := by
    split at h <;> omega
  rw [mantissaLength_lookahead hhead htext hle]
  have hpos : mantissaLength (text ++ rest) ≠ 0 := by
    split at h <;> omega
  rw [if_neg hpos] at h ⊢
  rw [if_neg hpos]
  congr 1
  rw [List.drop_append_of_le_length hle] at h ⊢
  rw [List.drop_append_of_le_length hle]
  -- an exponent can come up behind the text only if the text is a mantissa without one
  by_cases hwhole : mantissaLength (text ++ rest) = text.length
  · rw [hwhole, List.drop_length] at h ⊢
    rw [List.nil_append] at h ⊢
    rw [List.nil_append, hexponent hwhole]
    omega
  · refine exponentLength_lookahead hhead ?_ ?_
    · omega
    · rw [List.length_drop]
      omega

end

/-! ### Lexemes before another text -/

section

variable {c : Char} {rest rest' : List Char} {n : Nat}

theorem take_append_drop_length (hn : n ≤ rest.length) :
    rest = rest.take n ++ rest.drop n ∧ (rest.take n).length = n :=
  ⟨(List.take_append_drop n rest).symm, List.length_take_of_le hn⟩

theorem lexemeAt_name_lookahead (hc : isNameStart c = true)
    (hhead : rest'.head? = (rest.drop (runLength isNamePart rest)).head?) :
    lexemeAt c (rest.take (runLength isNamePart rest) ++ rest') = lexemeAt c rest := by
  obtain ⟨hsplit, hlength⟩ := take_append_drop_length (runLength_le (p := isNamePart) rest)
  generalize hn : runLength isNamePart rest = n at *
  have hrun : runLength isNamePart (rest.take n ++ rest') = n := by
    rw [runLength_lookahead hhead (by rw [← hsplit, hn, hlength]), ← hsplit, hn]
  have htake : (rest.take n ++ rest').take n = rest.take n := by
    rw [List.take_append_of_le_length hlength.ge, List.take_take, Nat.min_self]
  rw [lexemeAt_name hc, lexemeAt_name hc, hrun, hn, htake]

theorem lexemeAt_string_lookahead (hc : c = '"' ∨ c = '\'') {body tail : List Char}
    (hbody : StringBody c body) (rest' : List Char) :
    lexemeAt c ((body ++ c :: tail).take (body.length + 1) ++ rest') =
      lexemeAt c (body ++ c :: tail) := by
  have htake : (body ++ c :: tail).take (body.length + 1) ++ rest' = body ++ c :: rest' := by
    rw [List.take_length_add_append, List.append_assoc]
    rfl
  rw [htake, lexemeAt_string hc hbody, lexemeAt_string hc hbody]

theorem runLength_pos_iff {p : Char → Bool} {text : List Char} :
    0 < runLength p text ↔ text.head?.any p = true := by
  cases text with
  | nil => simp
  | cons d text =>
    rw [runLength_cons]
    by_cases hd : p d = true <;> simp [hd]

theorem runLength_eq_zero_iff {p : Char → Bool} {text : List Char} :
    runLength p text = 0 ↔ text.head?.any p = false := by
  rw [← Bool.not_eq_true, ← runLength_pos_iff]
  omega

theorem runLength_eq_zero {p : Char → Bool} {text : List Char} (h : ∀ c ∈ text.head?, p c = false) :
    runLength p text = 0 := by
  cases text with
  | nil => rfl
  | cons c text =>
    rw [runLength_cons, h c rfl]
    rfl

theorem hexLength_pos_iff {zero x : Char} {digits : List Char} :
    0 < hexLength (zero :: x :: digits) ↔
      zero = '0' ∧ (x = 'x' ∨ x = 'X') ∧ digits.head?.any isHexDigit = true := by
  simp only [hexLength, runLength_pos_iff]
  split
  · rename_i h
    simp only [h, and_self, iff_true]
    omega
  · rename_i h
    simpa using h

/-- A hexadecimal literal is a zero, an `x` and a run of digits. -/
theorem exists_of_hexLength_pos {text : List Char} (h : 0 < hexLength text) :
    ∃ x digits, text = '0' :: x :: digits ∧ (x = 'x' ∨ x = 'X') ∧
      hexLength text = runLength isHexDigit digits + 2 := by
  rcases text with _ | ⟨zero, _ | ⟨x, digits⟩⟩
  · exact absurd h (Nat.lt_irrefl 0)
  · exact absurd h (Nat.lt_irrefl 0)
  · simp only [hexLength] at h ⊢
    split at h
    · rename_i hhex
      rw [if_pos hhex, Nat.add_comm]
      exact ⟨x, digits, by rw [hhex.1], hhex.2.1, rfl⟩
    · exact absurd h (Nat.lt_irrefl 0)

theorem exponentLength_pos_iff {e : Char} {rest : List Char} :
    0 < exponentLength (e :: rest) ↔
      isExponentLetter e = true ∧ (rest.drop (signLength rest)).head?.any Char.isDigit = true := by
  simp only [exponentLength, runLength_pos_iff]
  split
  · rename_i h
    simp only [h, and_self, iff_true]
    omega
  · rename_i h
    simpa using h

theorem exponentLength_of_sign {e sign : Char} {rest : List Char} (hsign : isSign sign = true)
    (hpos : 0 < exponentLength (e :: sign :: rest)) :
    exponentLength (e :: sign :: rest) = runLength Char.isDigit rest + 2 := by
  have hone : signLength (sign :: rest) = 1 := if_pos hsign
  simp only [exponentLength, hone, List.drop_succ_cons, List.drop_zero] at hpos ⊢
  split at hpos
  · rename_i h
    rw [if_pos h]
    omega
  · exact absurd hpos (Nat.lt_irrefl 0)

theorem decimalLength_zero_x {x : Char} (hx : x = 'x' ∨ x = 'X') (digits : List Char) :
    decimalLength ('0' :: x :: digits) = 1 := by
  rcases hx with rfl | rfl <;>
    simp [decimalLength, mantissaLength, runLength_cons, fractionLength, exponentLength,
      isExponentLetter]

/-- A zero becomes no hexadecimal literal if the two characters behind it stay. -/
theorem hexLength_lookahead_eq_zero (hhex : hexLength (c :: rest) = 0)
    (hn : decimalLength (c :: rest) = n + 1) (hhead : rest'.head? = (rest.drop n).head?)
    (hsecond : ∀ x ∈ (rest.drop n).head?, isWord x = true →
      rest'.tail.head? = (rest.drop n).tail.head?) :
    hexLength (c :: (rest.take n ++ rest')) = 0 := by
  refine Nat.eq_zero_of_not_pos fun hpos => ?_
  cases n with
  | zero =>
    rw [List.take_zero, List.nil_append] at hpos
    rw [List.drop_zero] at hhead hsecond
    cases rest' with
    | nil => exact absurd hpos (Nat.lt_irrefl 0)
    | cons x digits' =>
      -- the letter behind the zero stood there before, and so did what follows it
      obtain ⟨digits, rfl⟩ := List.head?_eq_some_iff.1 hhead.symm
      obtain ⟨rfl, hx, hdigits⟩ := hexLength_pos_iff.1 hpos
      have hpart : isWord x = true := by rcases hx with rfl | rfl <;> decide
      have hhead' : digits'.head? = digits.head? := hsecond x rfl hpart
      have hhex' := hexLength_pos_iff.2 ⟨rfl, hx, hhead' ▸ hdigits⟩
      omega
  | succ n =>
    cases rest with
    | nil =>
      have := decimalLength_le [c]
      rw [hn] at this
      simp at this
    | cons x rest =>
      -- a second character of a decimal literal is no letter
      rw [List.take_succ_cons, List.cons_append] at hpos
      obtain ⟨rfl, hx, -⟩ := hexLength_pos_iff.1 hpos
      rw [decimalLength_zero_x hx] at hn
      omega

theorem numberAt?_lookahead {lexeme : Lexeme} (h : numberAt? (c :: rest) = some (lexeme, n + 1))
    (hhead : rest'.head? = (rest.drop n).head?)
    (hsecond : ∀ x ∈ (rest.drop n).head?, isWord x = true →
      rest'.tail.head? = (rest.drop n).tail.head?)
    (hexponent : mantissaLength (c :: rest) = n + 1 → exponentLength rest' = 0) :
    numberAt? (c :: (rest.take n ++ rest')) = some (lexeme, n + 1) := by
  have hn : n ≤ rest.length := Nat.le_of_succ_le_succ (numberAt?_le h)
  obtain ⟨hsplit, hlength⟩ := take_append_drop_length hn
  have hcons : c :: rest = (c :: rest.take n) ++ rest.drop n := by rw [List.cons_append, ← hsplit]
  have htext : (c :: rest.take n).length = n + 1 := by rw [List.length_cons, hlength]
  have htake : (c :: (rest.take n ++ rest')).take (n + 1) = (c :: rest).take (n + 1) := by
    rw [List.take_succ_cons, List.take_succ_cons, List.take_append_of_le_length hlength.ge,
      List.take_take, Nat.min_self]
  simp only [numberAt?] at h ⊢
  by_cases hhex : 0 < hexLength (c :: rest)
  · -- hexadecimal digits end where the rest begins
    rw [if_pos hhex] at h
    simp only [Option.some.injEq, Prod.mk.injEq] at h
    obtain ⟨rfl, hlen⟩ := h
    have hsame : hexLength (c :: (rest.take n ++ rest')) = n + 1 := by
      rw [hcons] at hhex hlen
      rw [← hlen]
      exact hexLength_lookahead hhead hhex (by rw [hlen, htext])
    rw [hsame, if_pos (Nat.succ_pos n), htake, hlen]
  · rw [if_neg hhex] at h
    split at h
    · -- a decimal number ends there, and its first two characters still begin no hexadecimal one
      rename_i hdecimal
      simp only [Option.some.injEq, Prod.mk.injEq] at h
      obtain ⟨rfl, hlen⟩ := h
      have hsame : decimalLength (c :: (rest.take n ++ rest')) = n + 1 := by
        rw [hcons] at hlen
        rw [← hlen]
        refine decimalLength_lookahead hhead (List.cons_ne_nil _ _) (hlen.trans htext.symm) ?_
        rw [← hcons, htext]
        exact hexponent
      have hzero := hexLength_lookahead_eq_zero (by omega) hlen hhead hsecond
      rw [hsame, hzero, if_neg (Nat.lt_irrefl 0), if_pos (Nat.succ_pos n), htake, hlen]
    · cases h

/-- A number without an exponent has none behind it. -/
theorem exponentLength_of_mantissaLength {text : List Char} {lexeme : Lexeme}
    (h : numberAt? text = some (lexeme, n)) (hmantissa : mantissaLength text = n) :
    hexLength text = 0 ∧ decimalLength text = n ∧ exponentLength (text.drop n) = 0 := by
  simp only [numberAt?] at h
  split at h
  · rename_i hhex
    simp only [Option.some.injEq, Prod.mk.injEq] at h
    exfalso
    -- the mantissa of a hexadecimal literal is its zero
    have htwo := two_lt_hexLength hhex
    obtain ⟨x, digits, rfl, hx, -⟩ := exists_of_hexLength_pos hhex
    have hone := decimalLength_zero_x hx digits
    simp only [decimalLength] at hone
    split at hone <;> omega
  · rename_i hhex
    split at h
    · simp only [Option.some.injEq, Prod.mk.injEq] at h
      have hdecimal := h.2
      simp only [decimalLength, hmantissa] at hdecimal
      refine ⟨by omega, h.2, ?_⟩
      split at hdecimal <;> omega
    · cases h

/-- A number without an exponent goes on with one that comes to stand behind it. -/
theorem numberAt?_exponent {lexeme : Lexeme} (h : numberAt? (c :: rest) = some (lexeme, n + 1))
    (hmantissa : mantissaLength (c :: rest) = n + 1) (hhead : rest'.head? = (rest.drop n).head?)
    (hsecond : ∀ x ∈ (rest.drop n).head?, isWord x = true →
      rest'.tail.head? = (rest.drop n).tail.head?) :
    ∃ value, numberAt? (c :: (rest.take n ++ rest')) =
      some (numberLexeme value, n + 1 + exponentLength rest') := by
  obtain ⟨hhex, hdecimal, -⟩ := exponentLength_of_mantissaLength h hmantissa
  have hn : n ≤ rest.length := Nat.le_of_succ_le_succ (numberAt?_le h)
  obtain ⟨hsplit, hlength⟩ := take_append_drop_length hn
  have hhex' := hexLength_lookahead_eq_zero hhex hdecimal hhead hsecond
  have hmantissa' : mantissaLength (c :: (rest.take n ++ rest')) = n + 1 := by
    have htext : (c :: rest.take n).length = n + 1 := by rw [List.length_cons, hlength]
    rw [hsplit, ← List.cons_append] at hmantissa
    rw [← List.cons_append, mantissaLength_lookahead hhead (List.cons_ne_nil _ _), hmantissa]
    rw [hmantissa, htext]
  have hdrop : (c :: (rest.take n ++ rest')).drop (n + 1) = rest' := by
    rw [List.drop_succ_cons, List.drop_append_of_le_length hlength.ge, List.drop_of_length_le hlength.le,
      List.nil_append]
  have hdecimal' : decimalLength (c :: (rest.take n ++ rest')) = n + 1 + exponentLength rest' := by
    simp only [decimalLength]
    rw [hmantissa', if_neg (Nat.succ_ne_zero n), hdrop]
  simp only [numberAt?]
  rw [hhex', if_neg (Nat.lt_irrefl 0), hdecimal', if_pos (by omega)]
  exact ⟨_, rfl⟩

theorem takeWhile_append_congr {p : Char → Bool} (text : List Char) {rest rest' : List Char}
    (h : rest'.takeWhile p = rest.takeWhile p) :
    (text ++ rest').takeWhile p = (text ++ rest).takeWhile p := by
  induction text with
  | nil => exact h
  | cons d text ih => rw [List.cons_append, List.cons_append, List.takeWhile_cons,
      List.takeWhile_cons, ih]

theorem head?_of_takeWhile {p : Char → Bool} {d : Char} (hd : p d = true) {rest rest' : List Char}
    (h : rest'.takeWhile p = rest.takeWhile p) (hrest : rest'.head? = some d) :
    rest.head? = some d := by
  obtain ⟨tail', rfl⟩ := List.head?_eq_some_iff.1 hrest
  rw [List.takeWhile_cons, if_pos hd] at h
  cases rest with
  | nil => cases h
  | cons e tail =>
    rw [List.takeWhile_cons] at h
    split at h
    · exact congrArg some (List.cons.inj h).1.symm
    · cases h

theorem lexemeAt_mark_lookahead (hc : isMarkStart c = true)
    (hcomment : ¬(c = '/' ∧ rest.head? = some '/')) {mark : Mark}
    (h : Mark.atStart? (c :: rest) = some (mark, n))
    (hn : n - 1 ≤ rest.length)
    (hmark : rest'.takeWhile isMarkTail = (rest.drop (n - 1)).takeWhile isMarkTail) :
    lexemeAt c (rest.take (n - 1) ++ rest') = (.token (.mark mark), n - 1) := by
  obtain ⟨hsplit, -⟩ := take_append_drop_length hn
  have hrest : (rest.take (n - 1) ++ rest').takeWhile isMarkTail = rest.takeWhile isMarkTail := by
    conv_rhs => rw [hsplit]
    exact takeWhile_append_congr _ hmark
  have hcomment' : ¬(c = '/' ∧ (rest.take (n - 1) ++ rest').head? = some '/') := fun hslash =>
    hcomment ⟨hslash.1, head?_of_takeWhile (by decide) hrest hslash.2⟩
  rw [lexemeAt_mark hc hcomment', markAt, Mark.atStart?_lookahead c hrest, h]

theorem atStart?_point (rest : List Char) : Mark.atStart? ('.' :: rest) = some (.dot, 1) := rfl

/-- A point with no digit behind it is a mark. -/
theorem lexemeAt_point {rest : List Char} (h : rest.head?.any Char.isDigit = false) :
    lexemeAt '.' rest = (.token (.mark .dot), 0) := by
  have hrun : runLength Char.isDigit rest = 0 := runLength_eq_zero_iff.2 h
  have hnumber : numberAt? ('.' :: rest) = none := by
    simp [numberAt?, hexLength_eq_zero, decimalLength, mantissaLength, runLength_cons,
      fractionLength, hrun]
  unfold lexemeAt
  rw [if_neg (by decide), if_neg (by simp), if_neg (by decide), if_neg (by decide), hnumber]
  rfl

theorem isDigit_of_numberAt?_point {rest : List Char} (h : numberAt? ('.' :: rest) = none) :
    rest.head?.any Char.isDigit = false := by
  rw [← Bool.not_eq_true, ← runLength_pos_iff]
  intro hpos
  have hdecimal : 0 < decimalLength ('.' :: rest) := by
    have hwhole : runLength Char.isDigit ('.' :: rest) = 0 := by simp [runLength_cons]
    have hmantissa : 0 < mantissaLength ('.' :: rest) := by
      simp only [mantissaLength, hwhole, List.drop_zero, fractionLength, if_true]
      split <;> omega
    simp only [decimalLength]
    split <;> omega
  simp only [numberAt?, hexLength_eq_zero (by decide : '.' ≠ '0'), if_pos hdecimal] at h
  cases h

end

/-! ### The characters of a number -/

/-- Whether a character can stand in a decimal literal. -/
def isDecimalPart (c : Char) : Bool :=
  c.isDigit || c = '.' || isExponentLetter c || isSign c

/-- The characters of a decimal literal, of which the last is a digit or a point. -/
structure DecimalChars (text : List Char) : Prop where
  all : ∀ c ∈ text, isDecimalPart c = true
  last : ∀ c ∈ text.getLast?, c.isDigit = true ∨ c = '.'

namespace DecimalChars

theorem nil : DecimalChars [] where
  all _ h := by cases h
  last _ h := by cases h

theorem append {text tail : List Char} (htext : DecimalChars text) (htail : DecimalChars tail) :
    DecimalChars (text ++ tail) where
  all c hc := (List.mem_append.1 hc).elim (htext.all c) (htail.all c)
  last c hc := by
    rw [List.getLast?_append] at hc
    cases htail' : tail.getLast? with
    | none => exact htext.last c (by simpa [htail'] using hc)
    | some d => exact htail.last c (by simpa [htail'] using hc)

theorem append_of_ne_nil {text tail : List Char} (htext : ∀ c ∈ text, isDecimalPart c = true)
    (htail : DecimalChars tail) (hne : tail ≠ []) : DecimalChars (text ++ tail) where
  all c hc := (List.mem_append.1 hc).elim (htext c) (htail.all c)
  last c hc := by
    obtain ⟨d, hd⟩ := Option.isSome_iff_exists.1 (List.getLast?_isSome.2 hne)
    rw [List.getLast?_append, hd] at hc
    exact htail.last c (hd.trans hc)

theorem digits {text : List Char} (h : ∀ c ∈ text, c.isDigit = true) : DecimalChars text where
  all c hc := by simp [isDecimalPart, h c hc]
  last c hc := .inl (h c (List.mem_of_getLast? hc))

theorem takeRun (text : List Char) : DecimalChars (text.take (runLength Char.isDigit text)) := by
  rw [take_runLength]
  exact digits fun c hc => List.all_eq_true.1 List.all_takeWhile c hc

theorem takeFraction (text : List Char) : DecimalChars (text.take (fractionLength text)) := by
  cases text with
  | nil => exact nil
  | cons c rest =>
    simp only [fractionLength]
    split
    · rename_i hc
      subst hc
      have hpoint : DecimalChars ['.'] :=
        ⟨by simp [isDecimalPart], fun d hd => .inr (Option.some.inj hd).symm⟩
      rw [Nat.add_comm, List.take_succ_cons]
      exact hpoint.append (takeRun rest)
    · exact nil

theorem takeMantissa (text : List Char) : DecimalChars (text.take (mantissaLength text)) := by
  simp only [mantissaLength]
  split
  · exact nil
  · rw [List.take_add]
    exact (takeRun text).append (takeFraction _)

theorem isSign_of_mem_take {c : Char} {text : List Char} (hc : c ∈ text.take (signLength text)) :
    isSign c = true := by
  cases text with
  | nil => cases hc
  | cons d rest =>
    unfold signLength at hc
    split at hc
    · rename_i hd
      rw [List.take_succ_cons, List.take_zero, List.mem_singleton] at hc
      rw [hc]
      simpa using hd
    · cases hc

theorem takeExponent (text : List Char) : DecimalChars (text.take (exponentLength text)) := by
  cases text with
  | nil => exact nil
  | cons e rest =>
    simp only [exponentLength]
    split
    · rename_i h
      have hrun := takeRun (rest.drop (signLength rest))
      -- The digits behind the sign end the exponent, so the letter and the sign may stand in front of them.
      have hne : (rest.drop (signLength rest)).take
          (runLength Char.isDigit (rest.drop (signLength rest))) ≠ [] := by
        intro hnil
        have hle := runLength_le (p := Char.isDigit) (rest.drop (signLength rest))
        rw [List.take_eq_nil_iff] at hnil
        rcases hnil with hzero | hempty
        · omega
        · rw [hempty] at h
          exact absurd h.2 (Nat.lt_irrefl 0)
      have hfront : ∀ c ∈ e :: rest.take (signLength rest), isDecimalPart c = true := by
        intro c hc
        rcases List.mem_cons.1 hc with rfl | hsign
        · simp [isDecimalPart, h.1]
        · simp [isDecimalPart, isSign_of_mem_take hsign]
      rw [Nat.add_assoc, Nat.add_comm 1, List.take_succ_cons, List.take_add]
      exact append_of_ne_nil hfront hrun hne
    · exact nil

theorem takeDecimal (text : List Char) : DecimalChars (text.take (decimalLength text)) := by
  simp only [decimalLength]
  split
  · exact nil
  · rw [List.take_add]
    exact (takeMantissa text).append (takeExponent _)

end DecimalChars

theorem isAlphanum_iff {c : Char} : c.isAlphanum = true ↔
    ((65 ≤ c.val ∧ c.val ≤ 90) ∨ (97 ≤ c.val ∧ c.val ≤ 122)) ∨ c.isDigit = true := by
  have halphanum : c.isAlphanum = ((decide (65 ≤ c.val ∧ c.val ≤ 90) ||
      (decide (97 ≤ c.val) && decide (c.val ≤ 122))) || c.isDigit) := rfl
  rw [halphanum, Bool.or_eq_true, Bool.or_eq_true, Bool.and_eq_true, decide_eq_true_eq,
    decide_eq_true_eq, decide_eq_true_eq]

theorem isAlphanum_of_isHexDigit {c : Char} (h : isHexDigit c = true) : c.isAlphanum = true := by
  unfold isHexDigit radixDigit? digitValue? at h
  rw [isAlphanum_iff]
  split at h
  · rename_i hdigit
    exact .inr hdigit
  · split at h
    · rename_i hlower
      exact .inl (.inr hlower)
    · split at h
      · rename_i hupper
        exact .inl (.inl hupper)
      · cases h

theorem numberAt?_pos {text : List Char} {lexeme : Lexeme} {n : Nat}
    (h : numberAt? text = some (lexeme, n)) : 0 < n := by
  simp only [numberAt?] at h
  split at h
  · cases h
    assumption
  · split at h
    · cases h
      assumption
    · cases h

theorem isWord_of_isAlphanum {c : Char} (h : c.isAlphanum = true) : isWord c = true := by
  have hcode : c.toNat < 128 := by
    show c.val.toNat < 128
    rcases isAlphanum_iff.1 h with (⟨-, hhigh⟩ | ⟨-, hhigh⟩) | hdigit
    · exact Nat.lt_of_le_of_lt (UInt32.le_iff_toNat_le.1 hhigh) (by decide)
    · exact Nat.lt_of_le_of_lt (UInt32.le_iff_toNat_le.1 hhigh) (by decide)
    · obtain ⟨k, rfl⟩ := exists_digit hdigit
      clear h hdigit
      revert k
      decide
  rw [isWord, if_pos hcode, h, Bool.true_or]

theorem isWord_of_isDigit {c : Char} (h : c.isDigit = true) : isWord c = true :=
  isWord_of_isAlphanum (by simp [Char.isAlphanum, h])

theorem eq_of_isExponentLetter {e : Char} (h : isExponentLetter e = true) : e = 'e' ∨ e = 'E' := by
  simpa only [isExponentLetter, Bool.or_eq_true, decide_eq_true_eq] using h

theorem isWord_of_isExponentLetter {e : Char} (h : isExponentLetter e = true) : isWord e = true := by
  rcases eq_of_isExponentLetter h with rfl | rfl <;> decide

/-- The characters of a number: those of a decimal literal, or three letters and digits or more. -/
theorem numberAt?_chars {text : List Char} {lexeme : Lexeme} {n : Nat}
    (h : numberAt? text = some (lexeme, n)) :
    DecimalChars (text.take n) ∨
      2 < (text.take n).length ∧ ∀ c ∈ text.take n, c.isAlphanum = true := by
  simp only [numberAt?] at h
  split at h
  · rename_i hhex
    cases h
    right
    -- Besides the mark in front a hexadecimal number has a digit at least.
    have htwo := two_lt_hexLength hhex
    have hle := hexLength_le text
    refine ⟨by rw [List.length_take]; omega, ?_⟩
    obtain ⟨x, digits, rfl, hx, hlength⟩ := exists_of_hexLength_pos hhex
    rw [hlength, List.take_succ_cons, List.take_succ_cons, take_runLength]
    intro c hc
    rcases List.mem_cons.1 hc with rfl | hc
    · rfl
    rcases List.mem_cons.1 hc with rfl | hc
    · rcases hx with rfl | rfl <;> rfl
    · exact isAlphanum_of_isHexDigit (List.all_eq_true.1 List.all_takeWhile c hc)
  · split at h
    · cases h
      exact .inl (DecimalChars.takeDecimal text)
    · cases h

/-! ### Tokens of names and marks -/

theorem runLength_append_of_all {p : Char → Bool} {text : List Char} (h : ∀ c ∈ text, p c = true)
    (tail : List Char) : runLength p (text ++ tail) = text.length + runLength p tail := by
  unfold runLength
  rw [List.takeWhile_append_of_pos h, List.length_append]

/-- A name is one token where it ends. -/
theorem tokensIn_name {c : Char} {rest tail : List Char} (hc : isNameStart c = true)
    (hrest : ∀ d ∈ rest, isNamePart d = true) (htail : ∀ d ∈ tail.head?, isNamePart d = false) :
    tokensIn (c :: rest ++ tail) =
      (tokensIn tail).map (nameToken (String.ofList (c :: rest)) :: ·) := by
  have hrun : runLength isNamePart (rest ++ tail) = rest.length := by
    rw [runLength_append_of_all hrest, runLength_eq_zero htail, Nat.add_zero]
  have hlexeme := lexemeAt_name hc (rest ++ tail)
  rw [hrun, List.take_left] at hlexeme
  rw [List.cons_append, tokensIn_token hlexeme, List.drop_left]

theorem tokensIn_openParen (rest : List Char) :
    tokensIn ('(' :: rest) = (tokensIn rest).map (.mark .openParen :: ·) := by
  have hlexeme : lexemeAt '(' rest = (.token (.mark .openParen), 0) := lexemeAt_mark rfl (by simp)
  rw [tokensIn_token hlexeme, List.drop_zero]

theorem tokensIn_closeParen (rest : List Char) :
    tokensIn (')' :: rest) = (tokensIn rest).map (.mark .closeParen :: ·) := by
  have hlexeme : lexemeAt ')' rest = (.token (.mark .closeParen), 0) := lexemeAt_mark rfl (by simp)
  rw [tokensIn_token hlexeme, List.drop_zero]

theorem tokensIn_minus {rest : List Char} (h : rest.head?.any isMarkTail = false) :
    tokensIn ('-' :: rest) = (tokensIn rest).map (.mark .minus :: ·) := by
  have hnone : rest.takeWhile isMarkTail = [].takeWhile isMarkTail := by
    cases rest with
    | nil => rfl
    | cons c rest =>
      have hc : ¬isMarkTail c = true := by simpa using h
      rw [List.takeWhile_cons, if_neg hc]
      rfl
  have hlexeme : lexemeAt '-' rest = (.token (.mark .minus), 0) := by
    rw [lexemeAt_mark rfl (by simp), markAt, Mark.atStart?_lookahead '-' hnone]
    rfl
  rw [tokensIn_token hlexeme, List.drop_zero]

/-- A blank makes no difference to the tokens behind it. -/
theorem tokensIn_blank (rest : List Char) : tokensIn (' ' :: rest) = tokensIn rest := by
  have hskipped {c : Char} (hc : isSourceBlank c = true) (rest : List Char) :
      lexemeAt c rest = (.skipped, runLength isSourceBlank rest) := by
    unfold lexemeAt
    rw [if_pos hc]
  rw [tokensIn_skipped (hskipped rfl rest)]
  cases rest with
  | nil => rfl
  | cons c rest =>
    by_cases hc : isSourceBlank c = true
    · -- the blanks are skipped together
      rw [drop_runLength, List.dropWhile_cons, if_pos hc, tokensIn_skipped (hskipped hc rest), drop_runLength]
    · rw [drop_runLength, List.dropWhile_cons, if_neg hc]

/-- A mark in front of a blank is one token. -/
theorem tokensIn_mark {c : Char} (hc : isMarkStart c = true) (hslash : c ≠ '/') (text rest : List Char) {mark : Mark}
    (hmark : markAt (c :: (text ++ ' ' :: rest)) = (.token (.mark mark), text.length + 1)) :
    tokensIn (c :: (text ++ ' ' :: rest)) = (tokensIn rest).map (.mark mark :: ·) := by
  have hlexeme : lexemeAt c (text ++ ' ' :: rest) = (.token (.mark mark), text.length) := by
    rw [lexemeAt_mark hc fun hcomment => hslash hcomment.1, hmark]
    rfl
  rw [tokensIn_token hlexeme, List.drop_left, tokensIn_blank]

end SequenceNotation.Script
