import SequenceNotation.Proofs.Number.Numeral
import SequenceNotation.Proofs.Script.NumberLiteral

/-!
# How tokens are spelled

Which texts spell which token is said without the scanner: a relation with a case for each kind of literal, for names,
reserved words and marks.  The scanner takes texts that spell what it makes of them, and of those that a text begins
with it takes none that is shorter than another.  So a text spells one token at most.
-/

namespace SequenceNotation.Script

open SequenceNotation.Number SequenceNotation.Text

/-! ### The inside of string literals -/

/-- What stands between the quotes of a string literal, and the text that it stands for. -/
inductive StringText (quote : Char) : List Char → List Char → Prop
  | nil : StringText quote [] []
  | plain {c : Char} {body text : List Char} (hc : c ≠ quote) (hback : c ≠ '\\') (hbody : StringText quote body text) :
    StringText quote (c :: body) (c :: text)
  | escape {c : Char} {body text : List Char} (hc : c ≠ '\n') (hbody : StringText quote body text) :
    StringText quote ('\\' :: c :: body) (escapeMeaning c :: text)

theorem stringText_iff {quote : Char} {body text : List Char} :
    StringText quote body text ↔ StringBody quote body ∧ text = unescape body := by
  constructor
  · intro h
    induction h with
    | nil => exact ⟨.nil, rfl⟩
    | plain hc hback _ ih => exact ⟨ih.1.plain hc hback, by rw [unescape_cons hback, ih.2]⟩
    | escape hc _ ih => exact ⟨ih.1.escape hc, by rw [unescape_backslash, ih.2]⟩
  · rintro ⟨hbody, rfl⟩
    induction hbody with
    | nil => exact .nil
    | plain hc hback _ ih => exact unescape_cons hback _ ▸ ih.plain hc hback
    | escape hc _ ih => exact unescape_backslash _ _ ▸ ih.escape hc

/-! ### The tables -/

/-- The first entry with a property is a given one with it, or stands in front of that. -/
theorem find?_of_pairwise {α : Type} {R : α → α → Prop} {p : α → Bool} {a : α} {entries : List α}
    (hpairwise : entries.Pairwise R) (ha : a ∈ entries) (hp : p a) : ∃ b ∈ entries.find? p, b = a ∨ R b a := by
  induction entries with
  | nil => cases ha
  | cons b entries ih =>
    obtain ⟨hb, hentries⟩ := List.pairwise_cons.1 hpairwise
    by_cases hfirst : p b
    · exact ⟨b, List.find?_cons_of_pos hfirst, (List.mem_cons.1 ha).imp Eq.symm (hb a)⟩
    · rw [List.find?_cons_of_neg hfirst]
      rcases List.mem_cons.1 ha with rfl | ha
      · exact absurd hp hfirst
      · exact ih hentries ha

namespace Keyword

theorem ofSpelling?_of_mem : ∀ entry ∈ table, ofSpelling? entry.2.1 = some entry.1 := by
  decide

theorem ofSpelling?_eq_none_iff {name : String} : ofSpelling? name = none ↔ ∀ entry ∈ table, entry.2.1 ≠ name := by
  rw [ofSpelling?, Option.map_eq_none_iff, List.find?_eq_none]
  simp only [beq_iff_eq, ne_eq]

/-- A reserved word is written as a name. -/
theorem isNamePart_spelling : ∀ entry ∈ table, ∃ c parts, entry.2.1.toList = c :: parts ∧ isNameStart c ∧
    ∀ d ∈ parts, isNamePart d := by
  have hall : ∀ entry ∈ table, entry.2.1.toList.head?.any isNameStart ∧ entry.2.1.toList.tail.all isNamePart := by
    decide
  intro entry hentry
  obtain ⟨hstart, hparts⟩ := hall entry hentry
  cases hspelling : entry.2.1.toList with
  | nil =>
    rw [hspelling] at hstart
    cases hstart
  | cons c parts =>
    rw [hspelling] at hstart hparts
    exact ⟨c, parts, rfl, hstart, List.all_eq_true.1 hparts⟩

end Keyword

namespace Mark

/-- No spelling stands twice in the table, and none before a longer one. -/
theorem pairwise_table :
    table.Pairwise fun entry later =>
      later.2.1.toList.length ≤ entry.2.1.toList.length ∧ entry.2.1.toList ≠ later.2.1.toList := by
  decide

theorem spelling_ne_nil : ∀ entry ∈ table, entry.2.1.toList ≠ [] := by
  decide

/-- All marks but the point stand at places where nothing else does, and none begins like a comment. -/
theorem isMarkStart_spelling : ∀ entry ∈ table, entry.1 = .dot ∧ entry.2.1.toList = ['.'] ∨
    entry.2.1.toList.head?.any isMarkStart ∧ entry.2.1.toList.tail.head? ≠ some '/' := by
  decide

/-- A mark at the start of a text is found there, or a longer one. -/
theorem atStart?_append {entry : Mark × String × String} (hentry : entry ∈ table) (back : List Char) :
    ∃ mark n, atStart? (entry.2.1.toList ++ back) = some (mark, n) ∧ entry.2.1.toList.length ≤ n ∧
      (n = entry.2.1.toList.length → mark = entry.1) := by
  have hown : entry.2.1.toList.isPrefixOf (entry.2.1.toList ++ back) :=
    List.isPrefixOf_iff_prefix.2 (List.prefix_append _ _)
  obtain ⟨found, hfind, hlonger⟩ := find?_of_pairwise pairwise_table hentry
    (p := fun entry' => entry'.2.1.toList.isPrefixOf (entry.2.1.toList ++ back)) hown
  have hlength : found.2.1.length = found.2.1.toList.length := String.length_toList.symm
  refine ⟨found.1, found.2.1.length, congrArg (Option.map _) hfind, ?_⟩
  rw [hlength]
  rcases hlonger with rfl | ⟨hle, hne⟩
  · exact ⟨Nat.le_refl _, fun _ => rfl⟩
  · refine ⟨hle, fun heq => absurd ?_ hne⟩
    -- both stand at the start of the text
    have hstart : found.2.1.toList.isPrefixOf (entry.2.1.toList ++ back) := by
      have := List.find?_some hfind
      exact this
    have hprefix := List.isPrefixOf_iff_prefix.1 hstart
    exact (List.prefix_of_prefix_length_le hprefix (List.prefix_append _ _) heq.le).eq_of_length heq

end Mark

/-! ### Spellings -/

/-- The texts that spell a token. -/
inductive Spells : List Char → Token → Prop
  | decimal (literal : NumberLiteral) : Spells literal.text (.number literal.value)
  | hexadecimal {x : Char} {digits : List Char} (hx : x = 'x' ∨ x = 'X') (hne : digits ≠ [])
    (hdigits : ∀ c ∈ digits, isHexDigit c) (hfits : numeralValue 16 digits < Nat.pow 2 64) :
    Spells ('0' :: x :: digits) (.number (Double.ofNat (numeralValue 16 digits)))
  | string {quote : Char} {body text : List Char} (hquote : quote = '"' ∨ quote = '\'')
    (hbody : StringText quote body text) :
    Spells (quote :: (body ++ [quote])) (.string (String.ofList text))
  | identifier {c : Char} {parts : List Char} (hc : isNameStart c) (hparts : ∀ d ∈ parts, isNamePart d)
    (hfree : ∀ entry ∈ Keyword.table, entry.2.1 ≠ String.ofList (c :: parts)) :
    Spells (c :: parts) (.identifier (String.ofList (c :: parts)))
  | keyword {entry : Keyword × String × String} (hentry : entry ∈ Keyword.table) :
    Spells entry.2.1.toList (.keyword entry.1)
  | mark {entry : Mark × String × String} (hentry : entry ∈ Mark.table) : Spells entry.2.1.toList (.mark entry.1)

/-- A name spells what is made of it. -/
theorem spells_nameToken {c : Char} {parts : List Char} (hc : isNameStart c) (hparts : ∀ d ∈ parts, isNamePart d) :
    Spells (c :: parts) (nameToken (String.ofList (c :: parts))) := by
  unfold nameToken
  split
  · rename_i word hword
    obtain ⟨entry, hentry, hname, rfl⟩ := Keyword.exists_of_ofSpelling? hword
    have hspells := Spells.keyword hentry
    rwa [hname, String.toList_ofList] at hspells
  · rename_i hfree
    exact .identifier hc hparts (Keyword.ofSpelling?_eq_none_iff.1 hfree)

/-! ### Hexadecimal numbers -/

theorem hexLength_append {x : Char} (hx : x = 'x' ∨ x = 'X') {digits : List Char} (hne : digits ≠ [])
    (hdigits : ∀ c ∈ digits, isHexDigit c) (back : List Char) :
    hexLength ('0' :: x :: (digits ++ back)) = digits.length + runLength isHexDigit back + 2 := by
  have hpos : 0 < digits.length := List.length_pos_iff.2 hne
  have hrun := runLength_append_of_all hdigits back
  rw [hexLength, hrun, if_pos ⟨rfl, hx, by omega⟩, Nat.add_comm]

/-- What is taken for a hexadecimal number is one. -/
theorem exists_hexadecimal {text : List Char} (h : 0 < hexLength text) :
    ∃ x digits back, text = '0' :: x :: (digits ++ back) ∧ (x = 'x' ∨ x = 'X') ∧ digits ≠ [] ∧
      (∀ c ∈ digits, isHexDigit c) ∧ hexLength text = digits.length + 2 := by
  have hlong := two_lt_hexLength h
  obtain ⟨x, digits, rfl, hx, hlength⟩ := exists_of_hexLength_pos h
  refine ⟨x, digits.takeWhile isHexDigit, digits.dropWhile isHexDigit, ?_, hx, ?_, ?_, hlength⟩
  · rw [List.takeWhile_append_dropWhile]
  · apply List.ne_nil_of_length_pos
    change 0 < runLength isHexDigit digits
    omega
  · exact List.all_eq_true.1 List.all_takeWhile

theorem hexValue?_eq {digits : List Char} (hne : digits ≠ []) (hdigits : ∀ c ∈ digits, isHexDigit c) :
    hexValue? digits =
      if numeralValue 16 digits < Nat.pow 2 64 then some (Double.ofNat (numeralValue 16 digits)) else none := by
  rw [hexValue?, readRadix?_eq hne hdigits]
  by_cases hfits : numeralValue 16 digits < Nat.pow 2 64
  · rw [if_pos hfits, Option.filter_some_pos (p := fun n => decide (n < Nat.pow 2 64)) (decide_eq_true hfits)]
    rfl
  · rw [if_neg hfits, Option.filter_some_neg (p := fun n => decide (n < Nat.pow 2 64)) (decide_eq_false hfits)]
    rfl

/-! ### What is taken -/

section

variable {text : List Char}

theorem numberAt?_of_hexLength (h : 0 < hexLength text) :
    numberAt? text = some (numberLexeme (hexValue? ((text.take (hexLength text)).drop 2)), hexLength text) :=
  if_pos h

theorem numberAt?_of_decimalLength (hhex : ¬0 < hexLength text) (h : 0 < decimalLength text) :
    numberAt? text = some (numberLexeme (readUnsigned false (text.take (decimalLength text))), decimalLength text) :=
  (if_neg hhex).trans (if_pos h)

end

theorem numberLexeme_eq_iff {value? : Option Double} {value : Double} :
    numberLexeme value? = .token (.number value) ↔ value? = some value := by
  cases value? with
  | none => exact ⟨nofun, nofun⟩
  | some value' => simp [numberLexeme]

/-- A number that is read spells its value. -/
theorem spells_number {text : List Char} {value : Double} {n : Nat}
    (h : numberAt? text = some (.token (.number value), n)) : Spells (text.take n) (.number value) := by
  simp only [numberAt?] at h
  split at h
  · -- hexadecimal digits, whose value has to fit
    rename_i hhex
    obtain ⟨x, digits, back, rfl, hx, hne, hdigits, hlength⟩ := exists_hexadecimal hhex
    have htake : ('0' :: x :: (digits ++ back)).take (digits.length + 2) = '0' :: x :: digits := by
      rw [List.take_succ_cons, List.take_succ_cons, List.take_left]
    obtain ⟨hvalue, rfl⟩ := Prod.mk.inj (Option.some.inj h)
    rw [hlength, htake] at hvalue ⊢
    rw [numberLexeme_eq_iff, List.drop_succ_cons, List.drop_succ_cons, List.drop_zero, hexValue?_eq hne hdigits] at hvalue
    split at hvalue
    · rename_i hfits
      obtain rfl := Option.some.inj hvalue
      exact .hexadecimal hx hne hdigits hfits
    · cases hvalue
  · split at h
    · rename_i hdecimal
      obtain ⟨literal, back, rfl, hlength⟩ := exists_numberLiteral hdecimal
      obtain ⟨hvalue, rfl⟩ := Prod.mk.inj (Option.some.inj h)
      rw [hlength, List.take_left] at hvalue ⊢
      rw [numberLexeme_eq_iff, literal.readUnsigned_text] at hvalue
      obtain rfl := Option.some.inj hvalue
      exact .decimal literal
    · cases h

theorem cons_take_pred {c : Char} {rest : List Char} {n : Nat} (h : 0 < n) :
    c :: rest.take (n - 1) = (c :: rest).take n := by
  obtain ⟨k, rfl⟩ := Nat.exists_eq_succ_of_ne_zero (Nat.ne_of_gt h)
  rw [Nat.succ_sub_one, List.take_succ_cons]

theorem take_runLength_spells {c : Char} (hc : isNameStart c) (rest : List Char) :
    Spells (c :: rest.take (runLength isNamePart rest))
      (nameToken (String.ofList (c :: rest.take (runLength isNamePart rest)))) := by
  refine spells_nameToken hc fun d hd => ?_
  rw [take_runLength] at hd
  exact List.all_eq_true.1 List.all_takeWhile d hd

/-- A token that is taken from a text is spelled by what is taken. -/
theorem spells_of_lexemeAt {c : Char} {rest : List Char} {token : Token} {n : Nat}
    (h : lexemeAt c rest = (.token token, n)) : Spells (c :: rest.take n) token := by
  by_cases hname : isNameStart c
  · rw [lexemeAt_name hname] at h
    obtain ⟨htoken, rfl⟩ := Prod.mk.inj h
    rw [← Lexeme.token.inj htoken]
    exact take_runLength_spells hname rest
  have hview := lexemeAt_view c rest
  rw [h] at hview
  cases hview with
  | @string hc body tail hbody hrest =>
    subst hrest
    have htake : (body ++ c :: tail).take (body.length + 1) = body ++ [c] := List.take_length_add_append ..
    change Spells (c :: (body ++ c :: tail).take (body.length + 1)) _
    rw [htake]
    exact .string hc (stringText_iff.2 ⟨hbody, rfl⟩)
  | identifier hc _ => exact absurd hc hname
  | keyword hc _ => exact absurd hc hname
  | @number _ value n hnumber =>
    change Spells (c :: rest.take (n - 1)) _
    rw [cons_take_pred (numberAt?_pos hnumber)]
    exact spells_number hnumber
  | mark _ _ _ hmark =>
    obtain ⟨entry, hentry, rfl, rfl, back, hback⟩ := Mark.exists_of_atStart? hmark
    change Spells (c :: rest.take (entry.2.1.toList.length - 1)) _
    rw [cons_take_pred (List.length_pos_iff.2 (Mark.spelling_ne_nil entry hentry)), hback, List.take_left]
    exact .mark hentry

/-! ### The longest text -/

/-- What the scanner takes from a text is no shorter than a text that spells a token; if it is as long, it is that
token. -/
structure Taken (c : Char) (word back : List Char) (token : Token) : Prop where
  length_le : word.length ≤ (lexemeAt c (word ++ back)).2
  token_eq : (lexemeAt c (word ++ back)).2 = word.length → (lexemeAt c (word ++ back)).1 = .token token

namespace Taken

variable {c : Char} {word : List Char} (back : List Char)

theorem of_eq {back : List Char} {token : Token} {lexeme : Lexeme} {n : Nat}
    (h : lexemeAt c (word ++ back) = (lexeme, n)) (hle : word.length ≤ n)
    (htoken : n = word.length → lexeme = .token token) : Taken c word back token where
  length_le := by rw [h]; exact hle
  token_eq := by rw [h]; exact htoken

/-- A decimal number is taken with its exponent; only a hexadecimal number at its place is longer. -/
theorem decimal (literal : NumberLiteral) (htext : literal.text = c :: word) :
    Taken c word back (.number literal.value) := by
  have hle := literal.length_le_decimalLength back
  rw [htext, List.length_cons, List.cons_append] at hle
  have hc : c.isDigit ∨ c = '.' := by
    by_contra! hc
    rw [decimalLength_eq_zero (Bool.eq_false_iff.2 hc.1) hc.2] at hle
    omega
  by_cases hhex : 0 < hexLength (c :: (word ++ back))
  · -- the decimal number is the zero in front of the letter
    have hlong := two_lt_hexLength hhex
    have hnumber := numberAt?_of_hexLength hhex
    obtain ⟨x, digits, heq, hx, -⟩ := exists_of_hexLength_pos hhex
    rw [heq, decimalLength_zero_x hx] at hle
    exact of_eq (lexemeAt_number hc hnumber) (by omega) (fun hlength => by omega)
  · refine of_eq (lexemeAt_number hc (numberAt?_of_decimalLength hhex (by omega))) (by omega) fun hlength => ?_
    have hdecimal : decimalLength (c :: (word ++ back)) = literal.text.length := by
      rw [htext, List.length_cons]
      omega
    rw [hdecimal, ← List.cons_append, ← htext, List.take_left, literal.readUnsigned_text]
    rfl

theorem hexadecimal {x : Char} {digits : List Char} (hx : x = 'x' ∨ x = 'X') (hne : digits ≠ [])
    (hdigits : ∀ c ∈ digits, isHexDigit c) (hfits : numeralValue 16 digits < Nat.pow 2 64) :
    Taken '0' (x :: digits) back (.number (Double.ofNat (numeralValue 16 digits))) := by
  have hlength := hexLength_append hx hne hdigits back
  have hpos : 0 < hexLength ('0' :: x :: (digits ++ back)) := by omega
  have hnumber := numberAt?_of_hexLength hpos
  refine of_eq (lexemeAt_number (.inl rfl) hnumber) ?_ fun heq => ?_
  · rw [List.length_cons]
    omega
  · rw [List.length_cons] at heq
    have hall : hexLength ('0' :: x :: (digits ++ back)) = digits.length + 2 := by omega
    rw [hall, List.take_succ_cons, List.take_succ_cons, List.take_left, List.drop_succ_cons, List.drop_succ_cons,
      List.drop_zero, hexValue?_eq hne hdigits, if_pos hfits]
    rfl

theorem string (hquote : c = '"' ∨ c = '\'') {body text : List Char} (hbody : StringText c body text) :
    Taken c (body ++ [c]) back (.string (String.ofList text)) := by
  obtain ⟨hplain, rfl⟩ := stringText_iff.1 hbody
  have htaken := lexemeAt_string hquote hplain back
  have happend : body ++ [c] ++ back = body ++ c :: back := List.append_assoc ..
  exact of_eq (happend ▸ htaken) (by simp) fun _ => rfl

theorem name (hc : isNameStart c) (hparts : ∀ d ∈ word, isNamePart d) :
    Taken c word back (nameToken (String.ofList (c :: word))) := by
  have hrun := runLength_append_of_all hparts back
  refine of_eq (lexemeAt_name hc _) (by omega) fun hlength => ?_
  rw [hlength, List.take_left]

/-- A point stays a mark unless it is the point of a number. -/
theorem point : Taken '.' [] back (.mark .dot) := by
  cases hdigit : back.head?.any Char.isDigit with
  | false => exact of_eq (lexemeAt_point hdigit) (Nat.le_refl 0) fun _ => rfl
  | true =>
    cases back with
    | nil => cases hdigit
    | cons d back =>
      have hd : d.isDigit := hdigit
      let literal : NumberLiteral :=
        { whole := [], places := some [d], exponent := none, isDigit_whole := by simp, isDigit_places := by simpa using hd
          digits_ne_nil := by simp }
      have hle : 1 ≤ (lexemeAt '.' (d :: back)).2 := (decimal back literal rfl).length_le
      refine ⟨Nat.zero_le _, fun hzero => absurd hle ?_⟩
      exact Nat.not_le.2 (hzero.trans_lt Nat.zero_lt_one)

theorem mark {entry : Mark × String × String} (hentry : entry ∈ Mark.table) (htext : entry.2.1.toList = c :: word) :
    Taken c word back (.mark entry.1) := by
  have hkind := Mark.isMarkStart_spelling entry hentry
  rw [htext] at hkind
  rcases hkind with ⟨hdot, hpoint⟩ | ⟨hstart, hslash⟩
  · -- a point may begin a number
    obtain ⟨rfl, rfl⟩ := List.cons.inj hpoint
    rw [hdot]
    exact point back
  by_cases hcomment : c = '/' ∧ (word ++ back).head? = some '/'
  · -- a comment takes more than the mark
    obtain ⟨rfl, hhead⟩ := hcomment
    have hpos : 0 < runLength (· ≠ '\n') (word ++ back) := by
      rw [runLength_pos_iff, hhead]
      rfl
    have hword : word = [] := by
      cases word with
      | nil => rfl
      | cons d word => exact absurd hhead hslash
    subst hword
    have hlexeme : lexemeAt '/' ([] ++ back) = (.skipped, runLength (· ≠ '\n') ([] ++ back)) := by
      unfold lexemeAt
      rw [if_neg (by decide), if_pos ⟨rfl, hhead⟩]
    exact of_eq hlexeme (Nat.zero_le _) fun hzero => absurd hpos (hzero ▸ Nat.lt_irrefl 0)
  · -- a longer mark may be taken, but no other one of this length
    obtain ⟨mark, n, hmark, hle, heq⟩ := Mark.atStart?_append hentry back
    rw [htext, List.length_cons] at hle heq
    rw [htext, List.cons_append] at hmark
    have hlexeme := lexemeAt_mark hstart hcomment
    rw [markAt, hmark] at hlexeme
    refine of_eq hlexeme (by dsimp only; omega) fun hlength => ?_
    dsimp only at hlength
    rw [heq (by omega)]

end Taken

theorem Spells.taken {c : Char} {word : List Char} {token : Token} (h : Spells (c :: word) token) (back : List Char) :
    Taken c word back token := by
  generalize htext : c :: word = text at h
  cases h with
  | decimal literal => exact .decimal back literal htext.symm
  | hexadecimal hx hne hdigits hfits =>
    obtain ⟨rfl, rfl⟩ := List.cons.inj htext
    exact .hexadecimal back hx hne hdigits hfits
  | string hquote hbody =>
    obtain ⟨rfl, rfl⟩ := List.cons.inj htext
    exact .string back hquote hbody
  | identifier hc hparts hfree =>
    obtain ⟨rfl, rfl⟩ := List.cons.inj htext
    have htaken := Taken.name back hc hparts
    rwa [nameToken, Keyword.ofSpelling?_eq_none_iff.2 hfree] at htaken
  | @keyword entry hentry =>
    obtain ⟨c', parts, hspelling, hc, hparts⟩ := Keyword.isNamePart_spelling entry hentry
    rw [hspelling] at htext
    obtain ⟨rfl, rfl⟩ := List.cons.inj htext
    have htaken := Taken.name back hc hparts
    rwa [← hspelling, String.ofList_toList, nameToken, Keyword.ofSpelling?_of_mem entry hentry] at htaken
  | mark hentry => exact .mark back hentry htext.symm

theorem Spells.ne_nil {text : List Char} {token : Token} (h : Spells text token) : text ≠ [] := by
  cases h with
  | decimal literal => exact literal.text_ne_nil
  | hexadecimal => exact List.cons_ne_nil _ _
  | string => exact List.cons_ne_nil _ _
  | identifier => exact List.cons_ne_nil _ _
  | keyword hentry =>
    obtain ⟨c, parts, hspelling, -⟩ := Keyword.isNamePart_spelling _ hentry
    rw [hspelling]
    exact List.cons_ne_nil _ _
  | mark hentry => exact Mark.spelling_ne_nil _ hentry

/-- A text spells one token at most. -/
theorem Spells.unique {text : List Char} {token token' : Token} (h : Spells text token) (h' : Spells text token') :
    token = token' := by
  obtain ⟨c, word, rfl⟩ := List.exists_cons_of_ne_nil h.ne_nil
  have hlength : (lexemeAt c (word ++ [])).2 = word.length := by
    have hle := lexemeAt_le c (word ++ [])
    rw [List.append_nil] at hle ⊢
    have hge := (h.taken []).length_le
    rw [List.append_nil] at hge
    exact Nat.le_antisymm hle hge
  have htoken := (h.taken []).token_eq hlength
  rw [(h'.taken []).token_eq hlength] at htoken
  exact (Lexeme.token.inj htoken).symm

end SequenceNotation.Script
