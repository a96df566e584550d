import SequenceNotation.Proofs.Script.FirstReading
import SequenceNotation.Proofs.Sequence.Literal

/-!
# Values of literals

A literal alone is a snippet whose first reading has a value.  A quoted text has the text itself as its
value, whatever its characters are.
-/

namespace SequenceNotation.Sequence

open SequenceNotation.Number SequenceNotation.Script SequenceNotation.Text

/-- A literal in parentheses is its tokens in parentheses. -/
theorem tokensOf_enclosed {literal : List Char} {tokens : List Token}
    (h : tokensIn (literal ++ [')']) = (tokensIn [')']).map (tokens ++ ·)) :
    tokensOf (parenthesised (String.ofList literal)) =
      some (.mark .openParen :: (tokens ++ [.mark .closeParen])) := by
  have hsource : (parenthesised (String.ofList literal)).toList = '(' :: (literal ++ [')']) := by
    simp [parenthesised]
  have htokens : tokensOf (parenthesised (String.ofList literal)) = tokensIn ('(' :: (literal ++ [')'])) := by
    rw [← hsource]
    rfl
  rw [htokens, tokensIn_openParen, h, tokensIn_closeParen, tokensIn_nil]
  rfl

theorem exists_place {placed : List PlacedToken} {token : Token} {tokens : List Token}
    (h : bare placed = token :: tokens) :
    ∃ start stop rest, placed = ⟨token, start, stop⟩ :: rest ∧ bare rest = tokens := by
  obtain ⟨place, rest, rfl, rfl, hrest⟩ := List.map_eq_cons_iff.1 h
  exact ⟨place.start, place.stop, rest, rfl, hrest⟩

/-- A token that is an expression by itself is one in parentheses. -/
theorem parseTokens_atom {token : Token} {tree : Expression} (hatom : Atom token tree) {placed : List PlacedToken}
    (h : bare placed = [.mark .openParen, token, .mark .closeParen]) : parseTokens placed = .ok tree := by
  obtain ⟨_, _, rest, rfl, h1⟩ := exists_place h
  obtain ⟨_, _, rest, rfl, h2⟩ := exists_place h1
  obtain ⟨_, _, rest, rfl, h3⟩ := exists_place h2
  obtain rfl := List.map_eq_nil_iff.1 h3
  cases hatom <;> rfl

/-- So is one behind a minus sign, in parentheses of its own. -/
theorem parseTokens_negated {token : Token} {tree : Expression} (hatom : Atom token tree)
    {placed : List PlacedToken}
    (h : bare placed = [.mark .openParen, .mark .openParen, .mark .minus, token, .mark .closeParen,
      .mark .closeParen]) : parseTokens placed = .ok (.unary .negate tree) := by
  obtain ⟨_, _, rest, rfl, h1⟩ := exists_place h
  obtain ⟨_, _, rest, rfl, h2⟩ := exists_place h1
  obtain ⟨_, _, rest, rfl, h3⟩ := exists_place h2
  obtain ⟨_, _, rest, rfl, h4⟩ := exists_place h3
  obtain ⟨_, _, rest, rfl, h5⟩ := exists_place h4
  obtain ⟨_, _, rest, rfl, h6⟩ := exists_place h5
  obtain rfl := List.map_eq_nil_iff.1 h6
  cases hatom <;> rfl

/-! ### Quoted texts -/

/-- The literal of a text is one token, the text itself, from its first character to its last. -/
theorem tokenize_literalQuoted (text : List Char) :
    tokenize (String.ofList (literalQuoted text)) =
      .ok [⟨.string (String.ofList text), 0, byteLength (literalQuoted text)⟩] := by
  have hquoted : literalQuoted text = '"' :: (text.flatMap literalEscape ++ ['"']) := rfl
  have hlexeme := lexemeAt_string (.inl rfl) (stringBody_escape text) []
  rw [unescape_escape] at hlexeme
  have htake : (text.flatMap literalEscape ++ ['"']).take ((text.flatMap literalEscape).length + 1) =
      text.flatMap literalEscape ++ ['"'] := List.take_of_length_le (by simp)
  have hdrop : (text.flatMap literalEscape ++ ['"']).drop ((text.flatMap literalEscape).length + 1) = [] :=
    List.drop_of_length_le (by simp)
  unfold tokenize
  rw [String.toList_ofList, hquoted, tokensFrom, hlexeme]
  dsimp only
  rw [htake, hdrop, tokensFrom, Nat.zero_add]

/-- The literal of a text has the text as its value, for which it needs one step. -/
theorem evaluate_literalQuoted (text : List Char) (budget : Budget) :
    evaluate budget (String.ofList (literalQuoted text)) =
      if budget.fuel = 0 then .error (.fuelExhausted 0) else .ok (.text (String.ofList text)) := by
  have htokens : tokensOf (parenthesised (String.ofList (literalQuoted text))) =
      some [.mark .openParen, .string (String.ofList text), .mark .closeParen] :=
    @tokensOf_enclosed _ [.string (String.ofList text)] (tokensIn_literalQuoted text [')'])
  have hparse := parseExpression_parenthesised htokens fun _ => parseTokens_atom (.text _)
  split
  · rename_i hfuel
    exact evaluate_of_isBudget hparse (runFresh_evaluate_exhausted _ hfuel) rfl
  · rename_i hfuel
    exact evaluate_of_value hparse (runFresh_evaluate _ hfuel) rfl

theorem literalOf_text {text : String} (h : (Value.text text).numeric? = none) (memberFollows : Bool) :
    literalOf (.text text) memberFollows = literalQuoted text.toList := by
  unfold literalOf
  dsimp only
  rw [h]
  rfl

/-- A placeholder alone becomes its literal. -/
theorem substitute_placeholder {source : String} {c : Char} (hsource : source.toList = [c])
    {placeholder : Placeholder} (h : Placeholder.ofChar? c = some placeholder) (values : PlaceholderValues) :
    substitute source values = String.ofList (literalOf (values.lookup placeholder) false) := by
  have halone : SubstitutionMode.placeholder? (.code none) c none = some placeholder := h
  unfold substitute
  rw [hsource, substituteFrom, substituteFrom, List.append_nil, List.head?_nil, replacement, halone]
  rfl

/-- A selected text that reads as no finite number gets through to the evaluation unchanged.  Its literal
is one token that holds the text and ends where the literal ends, and the snippet that is the letter of the
selected text has the text as its value, if there is a step to spend. -/
theorem selected_text_evaluates_to_itself (values : PlaceholderValues)
    (h : (Value.text values.selected).numeric? = none) :
    (∀ memberFollows,
      tokenize (String.ofList (literalOf (values.lookup .selected) memberFollows)) =
        .ok [⟨.string values.selected, 0, byteLength (literalOf (values.lookup .selected) memberFollows)⟩]) ∧
    ∀ budget, evaluate budget (substitute "o" values) =
      if budget.fuel = 0 then .error (.fuelExhausted 0) else .ok (.text values.selected) := by
  have hself : String.ofList values.selected.toList = values.selected := String.ofList_toList
  refine ⟨fun memberFollows => ?_, fun budget => ?_⟩
  · show tokenize (String.ofList (literalOf (.text values.selected) memberFollows)) =
      .ok [⟨_, _, byteLength (literalOf (.text values.selected) memberFollows)⟩]
    rw [literalOf_text h, tokenize_literalQuoted, hself]
  · have hvalue : values.lookup .selected = .text values.selected := rfl
    rw [@substitute_placeholder "o" 'o' rfl .selected rfl, hvalue, literalOf_text h, evaluate_literalQuoted, hself]

/-- Quotes, a backslash, the ends of lines, a tab, a character with code zero and two beyond ASCII. -/
theorem selected_text_evaluates_to_itself_all_escapes :
    let values : PlaceholderValues :=
      { selected := "\"a\\n'\n\r\t\x00ß→", start := .undefined, step := .undefined, selections := 1 }
    (Value.text values.selected).numeric? = none ∧
      (∀ memberFollows, tokenize (String.ofList (literalOf (values.lookup .selected) memberFollows)) =
        .ok [⟨.string values.selected, 0, 21⟩]) ∧
      evaluate { milliseconds := 0 } (substitute "o" values) = .ok (.text values.selected) := by
  intro values
  have hnumeric : (Value.text values.selected).numeric? = none := by decide
  obtain ⟨htokens, hvalue⟩ := selected_text_evaluates_to_itself values hnumeric
  refine ⟨hnumeric, fun memberFollows => ?_, ?_⟩
  · have hbytes : byteLength (literalOf (values.lookup .selected) memberFollows) = 21 := by
      cases memberFollows <;> decide
    rw [htokens, hbytes]
  · rw [hvalue]
    rfl

/-! ### Numbers -/

/-- A tree has a value with enough steps for it and its parts. -/
theorem evaluate_of_tokens {literal : List Char} {tokens : List Token} {tree : Expression} {budget : Budget}
    {value : Value} (htokens : tokensIn (literal ++ [')']) = (tokensIn [')']).map (tokens ++ ·))
    (hparse : ∀ placed, bare placed = .mark .openParen :: (tokens ++ [.mark .closeParen]) →
      parseTokens placed = .ok tree)
    (hvalue : (runFresh budget (interpreter.evaluate tree)).1 = .ok value) (hdefined : value.isUndefined = false) :
    evaluate budget (String.ofList literal) = .ok value :=
  evaluate_of_value (parseExpression_parenthesised (tokensOf_enclosed htokens) hparse) hvalue hdefined

/-- A tree that is a number wherever no variables are. -/
def IsNumber (tree : Expression) (number : Double) : Prop :=
  ∀ m : Machine, m.globals = [] → m.calls = [] →
    (interpreter.expressionValue tree).outcome m = (.ok (.number number), m)

theorem isNumber_number (number : Double) : IsNumber (.number number) number :=
  fun _ _ _ => rfl

/-- Without variables a name is one of the two constants. -/
theorem isNumber_name {name : String} {number : Double}
    (h : (name = "Infinity" ∧ number = Double.posInfinity) ∨ (name = "NaN" ∧ number = .nan)) :
    IsNumber (.name name) number := by
  intro m hglobals hcalls
  -- the constants are looked up last, behind all variables
  have hlookup : m.lookup? name = none := by
    unfold Machine.lookup?
    rw [hcalls, hglobals]
    rfl
  have hfound : (Run.lookup? name).outcome m = (.ok none, m) :=
    (Run.outcome_lookup? name m).trans (congrArg (fun found => (Except.ok found, m)) hlookup)
  show (Run.read name).outcome m = _
  unfold Run.read
  rw [RunOn.outcome_bind_ok hfound]
  obtain ⟨rfl, rfl⟩ | ⟨rfl, rfl⟩ := h <;> rfl

/-- The value of a magnitude, or of its negative in parentheses. -/
theorem evaluate_magnitude {inside : List Char} {token : Token} {tree : Expression} {number : Double}
    (hinside : inside = "Infinity".toList ∨ DecimalText inside)
    (htokens : ∀ tail, tokensIn (inside ++ ')' :: tail) = (tokensIn tail).map ([token, .mark .closeParen] ++ ·))
    (hatom : Atom token tree) (htree : IsNumber tree number) {budget : Budget} (hfuel : 2 ≤ budget.fuel)
    (negative : Bool) :
    evaluate budget
      (String.ofList (if negative then '(' :: Double.signed negative inside ++ [')'] else inside)) =
      .ok (.number (if negative then -number else number)) := by
  cases negative with
  | false =>
    have htoken : tokensIn (inside ++ [')']) = (tokensIn [')']).map ([token] ++ ·) := by
      rw [htokens, tokensIn_closeParen, Option.map_map]
      rfl
    have hvalue : (runFresh budget (interpreter.evaluate tree)).1 = .ok (.number number) := by
      rw [runFresh_evaluate _ (by omega), htree _ rfl rfl]
    exact evaluate_of_tokens htoken (fun _ => parseTokens_atom hatom) hvalue rfl
  | true =>
    have htoken : tokensIn ('(' :: ('-' :: inside) ++ [')'] ++ [')']) =
        (tokensIn [')']).map ([.mark .openParen, .mark .minus, token, .mark .closeParen] ++ ·) := by
      show tokensIn ('(' :: ('-' :: inside ++ [')'] ++ [')'])) = _
      rw [List.append_assoc]
      show tokensIn ('(' :: ('-' :: (inside ++ ')' :: [')']))) = _
      rw [tokensIn_openParen, tokensIn_minus_magnitude hinside, htokens, Option.map_map, Option.map_map]
      rfl
    -- what is behind the sign costs a second step, one level deeper
    have hone : (1 + 1) % clockInterval ≠ 0 := by decide
    have hdepth : 1 < maxDepth := by decide
    have hpart : (interpreter.evaluate tree).outcome { budget, spent := 1, depth := 1 } = _ :=
      outcome_evaluate hfuel hone hdepth
    rw [htree _ rfl rfl] at hpart
    have hvalue : (runFresh budget (interpreter.evaluate (.unary .negate tree))).1 = .ok (.number (-number)) := by
      rw [runFresh_evaluate _ (by omega)]
      exact congrArg Prod.fst (RunOn.outcome_bind_ok hpart)
    exact evaluate_of_tokens htoken (fun _ => parseTokens_negated hatom) hvalue rfl

/-- The literal of a number has the number as its value; a zero has no sign. -/
theorem evaluate_numberLiteral (n : Double) {budget : Budget} (hfuel : 2 ≤ budget.fuel) :
    evaluate budget (String.ofList (numberLiteral n false)) = .ok (.number n.unsignedZero) := by
  cases n with
  | nan =>
    have htoken : tokensIn ("NaN".toList ++ [')']) = (tokensIn [')']).map ([.identifier "NaN"] ++ ·) :=
      @tokensIn_name 'N' "aN".toList [')'] rfl (forall_of_all (by decide)) (by rintro d ⟨⟩; rfl)
    have hvalue : (runFresh budget (interpreter.evaluate (.name "NaN"))).1 = .ok (.number .nan) := by
      rw [runFresh_evaluate _ (by omega), isNumber_name (.inr ⟨rfl, rfl⟩) _ rfl rfl]
    exact evaluate_of_tokens htoken (fun _ => parseTokens_atom (.name "NaN")) hvalue rfl
  | infinite negative =>
    -- The name of infinity, in parentheses with a minus sign if it is negative.
    have htokens (tail : List Char) : tokensIn ("Infinity".toList ++ ')' :: tail) =
        (tokensIn tail).map ([.identifier "Infinity", .mark .closeParen] ++ ·) := by
      rw [tokensIn_infinity (by rintro d ⟨⟩; rfl), tokensIn_closeParen, Option.map_map]
      rfl
    have hvalue := evaluate_magnitude (.inl rfl) htokens (.name "Infinity") (isNumber_name (.inl ⟨rfl, rfl⟩))
      hfuel negative
    have hliteral : numberLiteral (.infinite negative) false =
        if negative then '(' :: Double.signed negative "Infinity".toList ++ [')'] else "Infinity".toList := by
      unfold numberLiteral
      rw [less_zero_infinite]
      cases negative <;> rfl
    rw [hliteral, hvalue]
    cases negative <;> rfl
  | finite negative units h =>
    -- The magnitude is read as the double it is, and only a number below zero has the sign.
    have hdigits := Double.decimalText_magnitudeDigits units
    have htokens (tail : List Char) : tokensIn (Double.magnitudeDigits units ++ ')' :: tail) =
        (tokensIn tail).map ([.number (.finite false units h), .mark .closeParen] ++ ·) := by
      rw [tokensIn_decimalText hdigits (Double.readUnsigned_magnitudeDigits false h) (endsNumber_closeParen tail),
        tokensIn_closeParen, Option.map_map]
      rfl
    have hvalue := evaluate_magnitude (.inr hdigits) htokens (.number _) (isNumber_number _) hfuel
      (negative && units ≠ 0)
    have hliteral : numberLiteral (.finite negative units h) false =
        if negative && units ≠ 0 then
          '(' :: Double.signed (negative && units ≠ 0) (Double.magnitudeDigits units) ++ [')']
        else Double.magnitudeDigits units := by
      unfold numberLiteral
      rw [Double.less_zero_finite, Double.toText_finite]
      cases negative && decide (units ≠ 0) <;> rfl
    rw [hliteral, hvalue]
    show _ = Except.ok (Value.number (.finite (negative && units ≠ 0) units h))
    cases negative && decide (units ≠ 0) <;> rfl

/-! ### All values -/

/-- The value that the literal of a value has. -/
def reread (value : Value) : Value :=
  match value with
  | .number n => .number n.unsignedZero
  | other =>
    match other.numeric? with
    | some n => .number n.unsignedZero
    | none => .text other.toOutput

/-- A literal alone is read as the number or the text that it shows. -/
theorem evaluate_literalOf (value : Value) {budget : Budget} (hfuel : 2 ≤ budget.fuel) :
    evaluate budget (String.ofList (literalOf value false)) = .ok (reread value) := by
  cases value with
  | number n => exact evaluate_numberLiteral n hfuel
  | _ =>
    unfold literalOf reread
    dsimp only
    generalize Value.numeric? _ = found
    cases found with
    | some n => exact evaluate_numberLiteral n hfuel
    | none =>
      dsimp only
      rw [evaluate_literalQuoted, if_neg (by omega), String.ofList_toList]

end SequenceNotation.Sequence
