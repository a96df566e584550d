import Mathlib.Data.List.TakeDrop
import SequenceNotation.Proofs.Number.RoundTrip
import SequenceNotation.Proofs.Script.Lookahead
import SequenceNotation.Sequence.Substitution

/-!
# Literals of values

What stands for a placeholder in an expression is a number, a name of one, either of them in
parentheses, or a quoted text.  Between characters that belong to no name the scanner reads it as the
same tokens everywhere.
-/

namespace SequenceNotation.Sequence

open SequenceNotation.Number SequenceNotation.Script SequenceNotation.Text

/-- The forms of a literal.  Behind a bare number comes no member. -/
inductive LiteralForm (memberFollows : Bool) : List Char → Prop
  | nan : LiteralForm memberFollows "NaN".toList
  | infinity : LiteralForm memberFollows "Infinity".toList
  | decimal {digits : List Char} (hmember : memberFollows = false) (hdigits : DecimalText digits) :
    LiteralForm memberFollows digits
  | enclosed {inside : List Char} (negative : Bool)
    (hinside : inside = "Infinity".toList ∨ DecimalText inside) :
    LiteralForm memberFollows ('(' :: Double.signed negative inside ++ [')'])
  | quoted (text : List Char) : LiteralForm memberFollows (literalQuoted text)

theorem less_zero_infinite (negative : Bool) : (Double.infinite negative).less 0 = negative := by
  obtain ⟨hzero, heq⟩ := Double.exists_nearest_zero
  rw [Double.zero_eq_nearest, heq]
  rfl

/-- The text of a number that is one is that of its magnitude behind its sign. -/
theorem exists_signed_toText {n : Double} (h : n.isNan = false) :
    ∃ inside, (inside = "Infinity".toList ∨ DecimalText inside) ∧
      n.toText.toList = Double.signed (n.less 0) inside := by
  cases n with
  | nan => cases h
  | infinite negative =>
    refine ⟨_, .inl rfl, ?_⟩
    rw [less_zero_infinite]
    cases negative <;> rfl
  | finite negative units hgrid =>
    refine ⟨_, .inr (Double.decimalText_magnitudeDigits units), ?_⟩
    rw [Double.toText_finite, Double.less_zero_finite]

theorem literalForm_numberLiteral (n : Double) (memberFollows : Bool) :
    LiteralForm memberFollows (numberLiteral n memberFollows) := by
  unfold numberLiteral
  split
  · exact .nan
  · rename_i hnan
    obtain ⟨inside, hinside, htext⟩ := exists_signed_toText (n := n) (by simpa using hnan)
    rw [htext]
    split
    · exact .enclosed _ hinside
    · rename_i hbare
      simp only [Bool.or_eq_true, not_or, Bool.not_eq_true] at hbare
      rw [hbare.1]
      rcases hinside with rfl | hdigits
      · exact .infinity
      · exact .decimal hbare.2 hdigits

/-- A number is written with a letter in front only if it is infinite. -/
theorem numberLiteral_head {number : Double} (hnan : number.isNan = false) (memberFollows : Bool)
    {letter : Char} {text : List Char}
    (h : numberLiteral number memberFollows = letter :: text) :
    letter = '(' ∨ letter.isDigit = true ∨ letter = 'I' ∧ text = "nfinity".toList := by
  unfold numberLiteral at h
  rw [if_neg (by simp [hnan])] at h
  split at h
  · exact .inl (List.cons.inj h).1.symm
  · rename_i hbare
    obtain ⟨inside, hinside, htext⟩ := exists_signed_toText hnan
    simp only [Bool.or_eq_true, not_or, Bool.not_eq_true] at hbare
    rw [htext, hbare.1] at h
    replace h : inside = letter :: text := h
    rcases hinside with rfl | hdigits
    · obtain ⟨rfl, rfl⟩ := List.cons.inj h
      exact .inr (.inr ⟨rfl, rfl⟩)
    · obtain ⟨d, rest, rfl, hd⟩ := hdigits.exists_cons
      obtain ⟨rfl, rfl⟩ := List.cons.inj h
      exact .inr (.inl hd)

theorem literalForm (value : Value) (memberFollows : Bool) :
    LiteralForm memberFollows (literalOf value memberFollows) := by
  unfold literalOf
  split
  · exact literalForm_numberLiteral _ _
  · split
    · exact literalForm_numberLiteral _ _
    · exact .quoted _

/-! ### The characters of a literal -/

/-- Whether a literal can begin with the character. -/
def isLiteralHead (c : Char) : Bool :=
  c.isDigit || c = 'N' || c = 'I' || c = '(' || c = '"'

theorem LiteralForm.exists_cons {memberFollows : Bool} {text : List Char}
    (h : LiteralForm memberFollows text) : ∃ d rest, text = d :: rest ∧ isLiteralHead d = true := by
  cases h with
  | nan => exact ⟨'N', _, rfl, rfl⟩
  | infinity => exact ⟨'I', _, rfl, rfl⟩
  | decimal _ hdigits =>
    obtain ⟨d, rest, heq, hd⟩ := hdigits.exists_cons
    exact ⟨d, rest, heq, by simp [isLiteralHead, hd]⟩
  | enclosed => exact ⟨'(', _, rfl, rfl⟩
  | quoted => exact ⟨'"', _, rfl, rfl⟩

/-- A literal that begins with a digit is the text of a number. -/
theorem LiteralForm.decimalText {memberFollows : Bool} {literal : List Char}
    (h : LiteralForm memberFollows literal) (hdigit : literal.head?.any Char.isDigit = true) :
    memberFollows = false ∧ DecimalText literal := by
  cases h with
  | nan => exact absurd hdigit (by decide)
  | infinity => exact absurd hdigit (by decide)
  | decimal hmember hdigits => exact ⟨hmember, hdigits⟩
  | enclosed => exact absurd (show Char.isDigit '(' = true from hdigit) (by decide)
  | quoted => exact absurd (show Char.isDigit '"' = true from hdigit) (by decide)

/-- No literal reaches into the next line. -/
theorem LiteralForm.newline_not_mem {memberFollows : Bool} {text : List Char}
    (h : LiteralForm memberFollows text) : '\n' ∉ text := by
  have hdecimal {digits : List Char} (hdigits : DecimalText digits) : '\n' ∉ digits := fun hc => by
    rcases hdigits.isDigit_or_eq _ hc with h | h <;> exact absurd h (by decide)
  cases h with
  | nan => decide
  | infinity => decide
  | decimal _ hdigits => exact hdecimal hdigits
  | enclosed negative hinside =>
    have hinner := hinside.elim (fun h => by rw [h]; decide) hdecimal
    cases negative <;> simp [Double.signed, hinner]
  | quoted => exact newline_not_mem_literalQuoted _

/-! ### The tokens of a literal -/

/-- Whether a number can stand in front of a text without going on there. -/
def EndsNumber (tail : List Char) : Prop :=
  ∀ c ∈ tail.head?, isWord c = false ∧ c ≠ '.'

theorem EndsNumber.head?_any {tail : List Char} (h : EndsNumber tail) {p : Char → Bool}
    (hp : ∀ c, p c = true → isWord c = true ∨ c = '.') : tail.head?.any p = false := by
  cases tail with
  | nil => rfl
  | cons c tail =>
    have hc := h c rfl
    rw [List.head?_cons, Option.any_some, ← Bool.not_eq_true]
    intro hpc
    rcases hp c hpc with hword | hpoint
    · rw [hc.1] at hword
      cases hword
    · exact hc.2 hpoint

theorem EndsNumber.runLength_eq_zero {tail : List Char} (h : EndsNumber tail) :
    runLength Char.isDigit tail = 0 := by
  refine Script.runLength_eq_zero fun c hc => ?_
  rw [← Bool.not_eq_true]
  intro hdigit
  have hword := isWord_of_isDigit hdigit
  rw [(h c hc).1] at hword
  cases hword

theorem EndsNumber.fractionLength_eq_zero {tail : List Char} (h : EndsNumber tail) :
    fractionLength tail = 0 := by
  cases tail with
  | nil => rfl
  | cons c tail => simp [fractionLength, (h c rfl).2]

theorem EndsNumber.exponentLength_eq_zero {tail : List Char} (h : EndsNumber tail) :
    exponentLength tail = 0 := by
  cases tail with
  | nil => rfl
  | cons c tail =>
    have hc : isExponentLetter c = false := by
      rw [← Bool.not_eq_true]
      intro hletter
      have hword := isWord_of_isExponentLetter hletter
      rw [(h c rfl).1] at hword
      cases hword
    simp [exponentLength, hc]

theorem decimalLength_decimalText {digits tail : List Char} (h : DecimalText digits)
    (htail : EndsNumber tail) : decimalLength (digits ++ tail) = digits.length := by
  have hmantissa : mantissaLength (digits ++ tail) = digits.length := by
    cases h with
    | whole hdigits hall =>
      have hpos : digits.length ≠ 0 := by simpa using hdigits
      simp only [mantissaLength]
      rw [runLength_append_of_all hall, htail.runLength_eq_zero, Nat.add_zero, List.drop_left,
        htail.fractionLength_eq_zero, if_neg (fun h => hpos h.1), Nat.add_zero]
    | @fraction whole places hdigits hall hplaces =>
      have hpos : whole.length ≠ 0 := by simpa using hdigits
      have hwhole : runLength Char.isDigit (whole ++ '.' :: places ++ tail) = whole.length := by
        rw [List.append_assoc, runLength_append_of_all hall]
        simp [runLength_cons]
      simp only [mantissaLength]
      rw [hwhole, if_neg (fun h => hpos h.1), List.append_assoc, List.drop_left, List.cons_append]
      simp only [fractionLength, if_true]
      rw [runLength_append_of_all hplaces, htail.runLength_eq_zero]
      simp only [List.length_append, List.length_cons]
      omega
  have hpos : digits.length ≠ 0 := by
    obtain ⟨d, rest, rfl, -⟩ := h.exists_cons
    simp
  simp only [decimalLength]
  rw [hmantissa, if_neg hpos, List.drop_left, htail.exponentLength_eq_zero, Nat.add_zero]

theorem hexLength_decimalText {digits tail : List Char} (h : DecimalText digits)
    (htail : EndsNumber tail) : hexLength (digits ++ tail) = 0 := by
  refine Nat.eq_zero_of_not_pos fun hpos => ?_
  obtain ⟨d, rest, rfl, -⟩ := h.exists_cons
  -- behind the first digit there is a digit, a point or the end of the number
  have hsecond : ∀ x ∈ (rest ++ tail).head?, ¬(x = 'x' ∨ x = 'X') := by
    intro x hx hletter
    cases rest with
    | nil =>
      have hword := (htail x hx).1
      rcases hletter with rfl | rfl <;> exact absurd hword (by decide)
    | cons c rest =>
      obtain rfl : c = x := Option.some.inj hx
      rcases h.isDigit_or_eq c (by simp) with hc | hc <;>
        rcases hletter with rfl | rfl <;> exact absurd hc (by decide)
  rw [List.cons_append] at hpos
  cases hrest : rest ++ tail with
  | nil =>
    rw [hrest] at hpos
    exact absurd hpos (Nat.lt_irrefl 0)
  | cons x digits =>
    rw [hrest] at hpos hsecond
    exact hsecond x rfl (hexLength_pos_iff.1 hpos).2.1

theorem exists_readUnsigned {digits : List Char} (h : DecimalText digits) :
    ∃ value, readUnsigned false digits = some value := by
  cases h with
  | whole hdigits hall => exact ⟨_, readUnsigned_whole false hdigits hall⟩
  | fraction hdigits hall hplaces => exact ⟨_, readUnsigned_fraction false hdigits hall hplaces⟩

/-- A number is one token where it ends. -/
theorem tokensIn_decimalText {digits : List Char} (h : DecimalText digits) {value : Double}
    (hvalue : readUnsigned false digits = some value) {tail : List Char} (htail : EndsNumber tail) :
    tokensIn (digits ++ tail) = (tokensIn tail).map (.number value :: ·) := by
  have hnumber : numberAt? (digits ++ tail) = some (.token (.number value), digits.length) := by
    have hpos : 0 < digits.length := by
      obtain ⟨d, rest, rfl, -⟩ := h.exists_cons
      simp
    simp only [numberAt?]
    rw [hexLength_decimalText h htail, decimalLength_decimalText h htail, if_neg (Nat.lt_irrefl 0),
      if_pos hpos, List.take_left, hvalue]
    rfl
  obtain ⟨d, rest, rfl, hd⟩ := h.exists_cons
  rw [List.cons_append] at hnumber ⊢
  rw [tokensIn_token (lexemeAt_number (.inl hd) hnumber), List.length_cons, Nat.add_sub_cancel,
    List.drop_left]

theorem exists_tokensIn_decimalText {digits : List Char} (h : DecimalText digits) :
    ∃ value, ∀ tail, EndsNumber tail →
      tokensIn (digits ++ tail) = (tokensIn tail).map (.number value :: ·) := by
  obtain ⟨value, hvalue⟩ := exists_readUnsigned h
  exact ⟨value, fun _ => tokensIn_decimalText h hvalue⟩

/-- The tokens of a literal by its form. -/
inductive LiteralTokens : List Char → List Token → Prop
  | name {name : String} (hname : name = "NaN" ∨ name = "Infinity") :
    LiteralTokens name.toList [.identifier name]
  | decimal {digits : List Char} (hdigits : DecimalText digits) (value : Double) :
    LiteralTokens digits [.number value]
  | enclosed (inside : List Char) (tokens : List Token) :
    LiteralTokens ('(' :: inside) (.mark .openParen :: tokens)
  | quoted (text : List Char) :
    LiteralTokens (literalQuoted text) [.string (String.ofList text)]

/-- What may follow a literal: no character of a word, a point only behind one for which a member
follows, and a dollar sign only behind one that is no name. -/
structure EndsLiteral (memberFollows : Bool) (literal tail : List Char) : Prop where
  word : ∀ c ∈ tail.head?, isWord c = false
  point : tail.head? = some '.' → memberFollows = true
  name : ∀ c ∈ tail.head?, literal.head?.any isNameStart = true → isNamePart c = false

theorem tokensIn_infinity {tail : List Char} (htail : ∀ d ∈ tail.head?, isNamePart d = false) :
    tokensIn ("Infinity".toList ++ tail) = (tokensIn tail).map (.identifier "Infinity" :: ·) :=
  @tokensIn_name 'I' "nfinity".toList tail rfl (forall_of_all (by decide)) htail

theorem endsNumber_closeParen (tail : List Char) : EndsNumber (')' :: tail) := by
  rintro d ⟨⟩
  decide

/-- A minus sign in front of a magnitude is a token of its own. -/
theorem tokensIn_minus_magnitude {inside : List Char} (hinside : inside = "Infinity".toList ∨ DecimalText inside)
    (tail : List Char) : tokensIn ('-' :: (inside ++ tail)) = (tokensIn (inside ++ tail)).map (.mark .minus :: ·) := by
  apply tokensIn_minus
  rcases hinside with rfl | hdigits
  · rfl
  · obtain ⟨d, rest, rfl, hd⟩ := hdigits.exists_cons
    obtain ⟨k, rfl⟩ := exists_digit hd
    simp only [List.cons_append, List.head?_cons, Option.any_some]
    clear hdigits hd
    revert k
    decide

/-- The number in parentheses and the closing one, in front of every text. -/
theorem exists_tokensIn_enclosed {inside : List Char} (negative : Bool)
    (hinside : inside = "Infinity".toList ∨ DecimalText inside) :
    ∃ tokens, ∀ tail, tokensIn (Double.signed negative inside ++ [')'] ++ tail) =
      (tokensIn tail).map (tokens ++ ·) := by
  have hmagnitude : ∃ token, ∀ tail, tokensIn (inside ++ ')' :: tail) =
      (tokensIn tail).map ([token, .mark .closeParen] ++ ·) := by
    rcases hinside with rfl | hdigits
    · refine ⟨.identifier "Infinity", fun tail => ?_⟩
      rw [tokensIn_infinity (by rintro d ⟨⟩; rfl), tokensIn_closeParen, Option.map_map]
      rfl
    · obtain ⟨value, hvalue⟩ := exists_tokensIn_decimalText hdigits
      refine ⟨.number value, fun tail => ?_⟩
      rw [hvalue _ (endsNumber_closeParen tail), tokensIn_closeParen, Option.map_map]
      rfl
  obtain ⟨token, htoken⟩ := hmagnitude
  -- A sign in front is a token of its own.
  cases negative with
  | false =>
    refine ⟨[token, .mark .closeParen], fun tail => ?_⟩
    rw [List.append_assoc]
    exact htoken tail
  | true =>
    refine ⟨.mark .minus :: [token, .mark .closeParen], fun tail => ?_⟩
    show tokensIn ('-' :: (inside ++ [')'] ++ tail)) = _
    rw [List.append_assoc, List.singleton_append, tokensIn_minus_magnitude hinside, htoken, Option.map_map]
    rfl

/-- A literal is the same tokens in front of every text. -/
theorem LiteralForm.exists_tokens {memberFollows : Bool} {literal : List Char}
    (h : LiteralForm memberFollows literal) :
    ∃ tokens, LiteralTokens literal tokens ∧
      ∀ tail, EndsLiteral memberFollows literal tail →
        tokensIn (literal ++ tail) = (tokensIn tail).map (tokens ++ ·) := by
  cases h with
  | nan =>
    exact ⟨_, .name (.inl rfl), fun tail htail =>
      @tokensIn_name 'N' "aN".toList tail rfl (forall_of_all (by decide)) fun c hc => htail.name c hc rfl⟩
  | infinity =>
    exact ⟨_, .name (.inr rfl), fun tail htail =>
      tokensIn_infinity fun c hc => htail.name c hc rfl⟩
  | decimal hmember hdigits =>
    obtain ⟨value, hvalue⟩ := exists_tokensIn_decimalText hdigits
    refine ⟨_, .decimal hdigits value, fun tail htail => hvalue tail fun c hc => ?_⟩
    refine ⟨htail.word c hc, ?_⟩
    rintro rfl
    rw [htail.point hc] at hmember
    cases hmember
  | @enclosed inside negative hinside =>
    obtain ⟨tokens, htokens⟩ := exists_tokensIn_enclosed negative hinside
    refine ⟨_, .enclosed _ tokens, fun tail _ => ?_⟩
    show tokensIn ('(' :: (Double.signed negative inside ++ [')'] ++ tail)) = _
    rw [tokensIn_openParen, htokens, Option.map_map]
    rfl
  | quoted text =>
    exact ⟨_, .quoted text, fun tail _ => tokensIn_literalQuoted text tail⟩

end SequenceNotation.Sequence
