import Mathlib.Data.List.TakeWhile
import SequenceNotation.Proofs.Notation.Scanning
import SequenceNotation.Proofs.Notation.StepLiteral
import SequenceNotation.Proofs.Text.Blank

/-!
# Written modifiers read back

Modifiers written with any spellings of their keys, in any order and with blanks between them, are read back exactly;
what is not written stays as the settings say.  Quotes hide keys, blanks and brackets in a value.
-/

namespace SequenceNotation.Notation

open SequenceNotation.Text SequenceNotation.Pattern SequenceNotation.Number

/-! ### Values -/

/-- A text that no quotes and no backslash interrupt, in quotes. -/
structure QuotedText where
  quote : Char
  text : List Char
  isQuote_quote : isQuote quote
  plain : ∀ c ∈ text, c ≠ quote ∧ c ≠ '\\'

def QuotedText.written (quoted : QuotedText) : List Char :=
  quoted.quote :: (quoted.text ++ [quoted.quote])

/-- The values of the modifiers that are given. -/
@[ext]
structure GivenModifiers where
  step : Option StepLiteral := none
  format : Option QuotedText := none
  frequency : Option CountLiteral := none
  startover : Option CountLiteral := none
  repetition : Option CountLiteral := none
  expression : Option QuotedText := none
  stop : Option QuotedText := none
  options : Option (List Char) := none
  format_ne_nil : ∀ quoted ∈ format, quoted.text ≠ []
  isLetter_options : ∀ letters ∈ options, ∀ c ∈ letters, isLetter c

namespace GivenModifiers

variable (given : GivenModifiers)

/-- The text of the value of a key. -/
def written? : ModifierKey → Option (List Char)
  | .step => given.step.map StepLiteral.text
  | .format => given.format.map QuotedText.written
  | .frequency => given.frequency.map CountLiteral.digits
  | .startover => given.startover.map CountLiteral.digits
  | .repetition => given.repetition.map CountLiteral.digits
  | .expression => given.expression.map QuotedText.written
  | .stop => given.stop.map QuotedText.written
  | .options => given.options

/-- The modifiers with the given values, and with what the settings say for the others. -/
def modifiers (settings : Settings) : Modifiers :=
  let defaults := Modifiers.ofSettings settings
  { step := (given.step.map (·.amount.value)).getD defaults.step
    dateUnit := given.step.bind StepLiteral.dateUnit
    frequency := (given.frequency.map CountLiteral.value).getD defaults.frequency
    repetition := (given.repetition.map CountLiteral.value).or defaults.repetition
    startover := (given.startover.map CountLiteral.value).or defaults.startover
    format := given.format.map fun quoted => String.ofList quoted.text
    expression := (given.expression.map fun quoted => String.ofList quoted.text).getD ""
    stopExpression := (given.stop.map fun quoted => String.ofList quoted.text).getD ""
    options := (given.options.map String.ofList).getD "" }

end GivenModifiers

/-- A key in a line: the blanks in front of it and its spelling. -/
structure PlacedKey where
  gap : List Char
  key : ModifierKey
  spelling : String

/-- Keys, each with its value directly behind it, and blanks at the end. -/
def GivenModifiers.line (given : GivenModifiers) (placed : List PlacedKey) (trailing : List Char) : List Char :=
  placed.flatMap (fun piece => piece.gap ++ (piece.spelling.toList ++ (given.written? piece.key).getD [])) ++ trailing

/-- The keys of all given modifiers are placed once each, in any order, with blanks between them. -/
structure GivenModifiers.Placed (given : GivenModifiers) (placed : List PlacedKey) (trailing : List Char) : Prop where
  nodup : (placed.map (·.key)).Nodup
  mem_iff : ∀ key, key ∈ placed.map (·.key) ↔ (given.written? key).isSome
  spelling_mem : ∀ piece ∈ placed, piece.spelling ∈ piece.key.spellings
  isBlank_gap : ∀ piece ∈ placed, ∀ c ∈ piece.gap, isBlank c
  gap_ne_nil : ∀ piece ∈ placed.tail, piece.gap ≠ []
  isBlank_trailing : ∀ c ∈ trailing, isBlank c

/-! ### Words -/

/-- There is no word in a text of blanks. -/
theorem firstWord?_of_blanks {text : List Char} (h : ∀ c ∈ text, isBlank c) : firstWord? text = none := by
  have htrim : trimLeft text = [] := List.dropWhile_eq_nil_iff.2 h
  rw [firstWord?, htrim]
  rfl

/-! ### Values stand alone -/

/-- A value whose end shows in front of a blank: nothing is open behind it, and behind its first character the mask
has neither marks of keys nor blanks. -/
structure StandsAlone (value : List Char) : Prop where
  closed : openAfter .none value = .none
  head : ∀ c ∈ value.head?, isBlank c = false ∧ c ≠ '#'
  shown : ∀ c ∈ (mask value).tail, c ∉ keyMarks ∧ isBlank c = false

theorem isToken_of_shown {token rest : List Char} (htoken : ∀ c ∈ token, c ∉ keyMarks ∧ isBlank c = false)
    (hrest : rest = [] ∨ ∃ c ∈ rest.head?, isBlank c) : IsToken (EndsToken none keySpellings) token rest := by
  have hback : ∀ c ∈ rest.head?, ∀ spelled ∈ spelledKeys, c ∉ spelled.2 := by
    intro c hc
    rcases hrest with rfl | ⟨d, hd, hblank⟩
    · cases hc
    · obtain rfl := Option.mem_unique hc hd
      exact not_mem_spelling_of_isBlank hblank
  refine ⟨?_, hrest.imp id .inl⟩
  rintro front tail rfl hne (⟨c, hhead, hblank⟩ | ⟨word, hword, -⟩ | hkey)
  · rw [List.head?_append_of_ne_nil _ hne] at hhead
    have hc := htoken c (List.mem_append_right _ (List.mem_of_mem_head? hhead))
    rw [hc.2] at hblank
    cases hblank
  · cases hword
  · exact not_startsKey_append (fun c hc => (htoken c (List.mem_append_right _ hc)).1) hback (startsKey_iff.2 hkey)

theorem StandsAlone.valueLength_eq {value rest : List Char} (h : StandsAlone value)
    (hrest : rest = [] ∨ ∃ c ∈ rest.head?, isBlank c) :
    valueLength (Segments.ofDelimiter none) (mask (value ++ rest)) (value ++ rest) = byteLength value := by
  cases value with
  | nil =>
    rcases hrest with rfl | ⟨c, hhead, hblank⟩
    · rfl
    · obtain ⟨rest, rfl⟩ := List.head?_eq_some_iff.1 hhead
      exact if_pos hblank
  | cons c value =>
    have hmask : mask (c :: value ++ rest) = [c] ++ ((mask (c :: value)).tail ++ mask rest) := by
      rw [mask_append h.closed]
      rfl
    have hmaskRest : mask rest = [] ∨ ∃ c ∈ (mask rest).head?, isBlank c := by
      rw [head?_mask]
      exact hrest.imp (fun hnil => by rw [hnil]; rfl) id
    have htoken : IsToken (EndsToken (delimiterWord? none) keySpellings) (mask (c :: value)).tail (mask rest) :=
      isToken_of_shown h.shown hmaskRest
    have hlength : valueLength (Segments.ofDelimiter none) ([c] ++ ((mask (c :: value)).tail ++ mask rest))
        (c :: (value ++ rest)) = byteLength (mask (c :: value)) := valueLength_token (h.head c rfl).1 rfl htoken
    rw [hmask, ← byteLength_maskFrom .none (c :: value)]
    exact hlength

/-- A character that hides nothing and is part of no key that has marks. -/
def IsPlain (c : Char) : Prop :=
  closer? c = none ∧ c ∉ keyMarks ∧ isBlank c = false

instance (c : Char) : Decidable (IsPlain c) :=
  inferInstanceAs (Decidable (_ ∧ _ ∧ _))

theorem standsAlone_of_plain {value : List Char} (h : ∀ c ∈ value, IsPlain c) : StandsAlone value := by
  have hclosers : ∀ c ∈ value, closer? c = none := fun c hc => (h c hc).1
  refine ⟨openAfter_plain hclosers, fun c hc => ?_, fun c hc => ?_⟩
  · obtain ⟨-, hmark, hblank⟩ := h c (List.mem_of_mem_head? hc)
    refine ⟨hblank, ?_⟩
    rintro rfl
    exact hmark (by decide)
  · rw [mask_plain hclosers] at hc
    exact (h c (List.mem_of_mem_tail hc)).2

theorem trim_of_plain {value : List Char} (h : ∀ c ∈ value, IsPlain c) : trim value = value :=
  trim_of_forall fun c hc => (h c hc).2.2

/-- What holds of neither opening characters nor marks nor blanks holds of plain characters only. -/
theorem isPlain_of {p : Char → Bool} (hspecial : ∀ c ∈ openers ++ keyMarks, p c = false)
    (hblank : ∀ c, p c → isBlank c = false) {c : Char} (h : p c) : IsPlain c := by
  have hnot : c ∉ openers ++ keyMarks := fun hc => by
    rw [hspecial c hc] at h
    cases h
  exact ⟨closer?_eq_none fun hc => hnot (List.mem_append_left _ hc), fun hc => hnot (List.mem_append_right _ hc),
    hblank c h⟩

theorem isPlain_of_isDigit {c : Char} (h : c.isDigit) : IsPlain c :=
  isPlain_of (forall_of_all (by decide)) (fun _ => isBlank_of_isDigit) h

theorem isPlain_of_isLetter {c : Char} (h : isLetter c) : IsPlain c :=
  isPlain_of (forall_of_all (by decide)) (fun _ => isBlank_of_isLetter) h

theorem isPlain_countLiteral (literal : CountLiteral) : ∀ c ∈ literal.digits, IsPlain c :=
  fun c hc => isPlain_of_isDigit (literal.isDigit_digits c hc)

theorem isPlain_decimal (literal : DecimalLiteral) : ∀ c ∈ literal.text, IsPlain c := by
  have hmarks : ∀ c ∈ ['+', '-', '.'], IsPlain c := forall_of_all (by decide)
  exact fun c hc => (literal.mem_text hc).elim isPlain_of_isDigit (hmarks c)

theorem isPlain_stepLiteral (literal : StepLiteral) : ∀ c ∈ literal.text, IsPlain c := by
  have hletters : ∀ c ∈ unitLetters, IsPlain c := forall_of_all (by decide)
  intro c hc
  rcases List.mem_append.1 hc with hamount | hunit
  · exact isPlain_decimal literal.amount c hamount
  · exact hletters c (literal.unit_mem c (Option.mem_toList.1 hunit))

namespace QuotedText

variable (quoted : QuotedText)

theorem quote_plain : quoted.quote ∉ keyMarks ∧ isBlank quoted.quote = false ∧ quoted.quote ≠ '#' := by
  have hquotes : quoted.quote = '"' ∨ quoted.quote = '\'' ∨ quoted.quote = '\x60' := by
    simpa [isQuote, or_assoc] using quoted.isQuote_quote
  rcases hquotes with hquote | hquote | hquote <;> rw [hquote] <;> decide

theorem standsAlone : StandsAlone quoted.written := by
  obtain ⟨hmark, hblank, hhash⟩ := quoted.quote_plain
  refine ⟨openAfter_enclosed quoted.isQuote_quote quoted.plain, ?_, fun c hc => ?_⟩
  · rintro c ⟨⟩
    exact ⟨hblank, hhash⟩
  · rw [written, mask_enclosed quoted.isQuote_quote quoted.plain, List.tail_cons] at hc
    rcases List.mem_append.1 hc with hfiller | hquote
    · rw [List.eq_of_mem_replicate hfiller]
      decide
    · rw [List.mem_singleton.1 hquote]
      exact ⟨hmark, hblank⟩

/-- Quotes keep blanks at the ends of a value. -/
theorem unquote_written : unquote (trim quoted.written) = quoted.text := by
  have hblank := quoted.quote_plain.2.1
  have hhead : quoted.written.head?.any isBlank = false := hblank
  have hlast : quoted.written.getLast?.any isBlank = false := by
    rw [written, ← List.cons_append, List.getLast?_concat]
    exact hblank
  rw [trim_of_ends hhead hlast]
  exact unquote_enclosed quoted.isQuote_quote quoted.text

end QuotedText

/-- A plain value that does not begin with a quote has none to lose. -/
theorem unquote_of_plain {value : List Char} (h : ∀ c ∈ value, IsPlain c) : unquote (trim value) = value := by
  rw [trim_of_plain h]
  refine unquote_eq_self fun quote inner hquote heq => ?_
  have hplain := (h quote (by rw [heq]; exact List.mem_cons_self)).1
  rw [closer?, if_pos hquote] at hplain
  cases hplain

/-! ### Values take effect -/

namespace GivenModifiers

variable (given : GivenModifiers)

theorem standsAlone {given : GivenModifiers} {key : ModifierKey} {value : List Char}
    (h : given.written? key = some value) : StandsAlone value := by
  have hcount {literal? : Option CountLiteral} (h : literal?.map CountLiteral.digits = some value) :
      StandsAlone value := by
    obtain ⟨literal, -, rfl⟩ := Option.map_eq_some_iff.1 h
    exact standsAlone_of_plain (isPlain_countLiteral literal)
  have hquoted {quoted? : Option QuotedText} (h : quoted?.map QuotedText.written = some value) :
      StandsAlone value := by
    obtain ⟨quoted, -, rfl⟩ := Option.map_eq_some_iff.1 h
    exact quoted.standsAlone
  cases key with
  | step =>
    obtain ⟨literal, -, rfl⟩ := Option.map_eq_some_iff.1 h
    exact standsAlone_of_plain (isPlain_stepLiteral literal)
  | frequency | startover | repetition => exact hcount h
  | format | expression | stop => exact hquoted h
  | options => exact standsAlone_of_plain fun c hc => isPlain_of_isLetter (given.isLetter_options value h c hc)

/-- The given modifiers with some keys only. -/
def only (keys : List ModifierKey) : GivenModifiers where
  step := if .step ∈ keys then given.step else none
  format := if .format ∈ keys then given.format else none
  frequency := if .frequency ∈ keys then given.frequency else none
  startover := if .startover ∈ keys then given.startover else none
  repetition := if .repetition ∈ keys then given.repetition else none
  expression := if .expression ∈ keys then given.expression else none
  stop := if .stop ∈ keys then given.stop else none
  options := if .options ∈ keys then given.options else none
  format_ne_nil quoted h := by
    split at h
    · exact given.format_ne_nil quoted h
    · cases h
  isLetter_options letters h := by
    split at h
    · exact given.isLetter_options letters h
    · cases h

/-- A value that is applied counts among the given ones. -/
theorem apply_value (settings : Settings) {key : ModifierKey} {value : List Char} (keys : List ModifierKey)
    (h : given.written? key = some value) :
    (((given.only keys).modifiers settings).apply (Segments.ofDelimiter none) key (unquote (trim value))).value =
      (given.only (key :: keys)).modifiers settings := by
  cases key with
  | step =>
    obtain ⟨literal, hstep, rfl⟩ := Option.map_eq_some_iff.1 h
    rw [unquote_of_plain (isPlain_stepLiteral literal), Modifiers.apply, setStep_text]
    simp [modifiers, only, hstep]
  | format =>
    obtain ⟨quoted, hformat, rfl⟩ := Option.map_eq_some_iff.1 h
    rw [quoted.unquote_written, Modifiers.apply, if_neg (given.format_ne_nil quoted hformat)]
    simp [modifiers, only, hformat]
  | frequency =>
    obtain ⟨literal, hcount, rfl⟩ := Option.map_eq_some_iff.1 h
    rw [unquote_of_plain (isPlain_countLiteral literal), Modifiers.apply, setCount_digits]
    simp [modifiers, only, hcount]
  | startover =>
    obtain ⟨literal, hcount, rfl⟩ := Option.map_eq_some_iff.1 h
    rw [unquote_of_plain (isPlain_countLiteral literal), Modifiers.apply, setCount_digits]
    simp [modifiers, only, hcount]
  | repetition =>
    obtain ⟨literal, hcount, rfl⟩ := Option.map_eq_some_iff.1 h
    rw [unquote_of_plain (isPlain_countLiteral literal), Modifiers.apply, setCount_digits]
    simp [modifiers, only, hcount]
  | expression =>
    obtain ⟨quoted, hexpression, rfl⟩ := Option.map_eq_some_iff.1 h
    rw [quoted.unquote_written, Modifiers.apply]
    simp [modifiers, only, hexpression]
  | stop =>
    obtain ⟨quoted, hstop, rfl⟩ := Option.map_eq_some_iff.1 h
    rw [quoted.unquote_written, Modifiers.apply]
    simp [modifiers, only, hstop]
  | options =>
    have hoptions : given.options = some value := h
    rw [unquote_of_plain fun c hc => isPlain_of_isLetter (given.isLetter_options value h c hc), Modifiers.apply]
    simp [modifiers, only, hoptions]

theorem only_nil (settings : Settings) : (given.only []).modifiers settings = .ofSettings settings :=
  rfl

/-- Keys that are not given make no difference. -/
theorem only_eq {keys : List ModifierKey} (h : ∀ key, (given.written? key).isSome → key ∈ keys) (settings : Settings) :
    (given.only keys).modifiers settings = given.modifiers settings := by
  have hfield {α : Type} {key : ModifierKey} {field : Option α}
      (hfield : field.isSome → (given.written? key).isSome) : (if key ∈ keys then field else none) = field := by
    cases field with
    | none => exact ite_self none
    | some a => exact if_pos (h key (hfield rfl))
  have hmap {α : Type} {field : Option α} {text : α → List Char} (hsome : field.isSome) :
      (field.map text).isSome := by
    rwa [Option.isSome_map]
  have honly : given.only keys = given :=
    GivenModifiers.ext (hfield hmap) (hfield hmap) (hfield hmap) (hfield hmap) (hfield hmap) (hfield hmap) (hfield hmap)
      (hfield id)
  rw [honly]

/-- What a placed key writes. -/
def writtenAt (piece : PlacedKey) : WrittenModifier :=
  { key := piece.key, keyText := piece.spelling.toList, value := unquote (trim ((given.written? piece.key).getD [])) }

/-- Applying placed keys in order sets their values. -/
theorem value_applyAll (settings : Settings) {placed : List PlacedKey} {seen : List ModifierKey}
    (hvalues : ∀ piece ∈ placed, (given.written? piece.key).isSome)
    (hnodup : (placed.map (·.key)).Nodup) (hseen : ∀ piece ∈ placed, piece.key ∉ seen) :
    (((given.only seen).modifiers settings).applyAll (Segments.ofDelimiter none) seen
        (placed.map given.writtenAt)).value =
      (given.only ((placed.map (·.key)).reverse ++ seen)).modifiers settings := by
  induction placed generalizing seen with
  | nil => rfl
  | cons piece placed ih =>
    obtain ⟨hvalue, hvalues⟩ := List.forall_mem_cons.1 hvalues
    obtain ⟨hpiece, hseen⟩ := List.forall_mem_cons.1 hseen
    obtain ⟨hfresh, hnodup⟩ := List.nodup_cons.1 hnodup
    obtain ⟨value, hwritten⟩ := Option.isSome_iff_exists.1 hvalue
    have hseen' : ∀ other ∈ placed, other.key ∉ piece.key :: seen := by
      intro other hother hmem
      rcases List.mem_cons.1 hmem with heq | hmem
      · exact hfresh (List.mem_map.2 ⟨other, hother, heq⟩)
      · exact hseen other hother hmem
    have hpiece' : (given.writtenAt piece).key ∉ seen := hpiece
    have happly : (((given.only seen).modifiers settings).apply (Segments.ofDelimiter none) (given.writtenAt piece).key
        (given.writtenAt piece).value).value = (given.only (piece.key :: seen)).modifiers settings := by
      rw [writtenAt, hwritten]
      exact given.apply_value settings seen hwritten
    rw [List.map_cons, Modifiers.applyAll, if_neg hpiece', Logged.value_bind, happly]
    exact (ih hvalues hnodup hseen').trans (by simp)

/-! ### Lines -/

variable {given}

/-- Behind a key and its value a line ends or goes on with a blank. -/
theorem line_head {placed : List PlacedKey} {trailing : List Char} (hgaps : ∀ piece ∈ placed, piece.gap ≠ [])
    (hblank : ∀ piece ∈ placed, ∀ c ∈ piece.gap, isBlank c) (htrailing : ∀ c ∈ trailing, isBlank c) :
    given.line placed trailing = [] ∨ ∃ c ∈ (given.line placed trailing).head?, isBlank c := by
  cases placed with
  | nil =>
    cases trailing with
    | nil => exact .inl rfl
    | cons c trailing => exact .inr ⟨c, rfl, htrailing c List.mem_cons_self⟩
  | cons piece placed =>
    obtain ⟨c, gap, hgap⟩ := List.exists_cons_of_ne_nil (hgaps piece List.mem_cons_self)
    refine .inr ⟨c, ?_, hblank piece List.mem_cons_self c (by rw [hgap]; exact List.mem_cons_self)⟩
    rw [line, List.flatMap_cons, hgap]
    rfl

theorem line_cons (piece : PlacedKey) (placed : List PlacedKey) (trailing : List Char) :
    given.line (piece :: placed) trailing =
      piece.gap ++ (piece.spelling.toList ++ ((given.written? piece.key).getD [] ++ given.line placed trailing)) := by
  simp only [line, List.flatMap_cons, List.append_assoc]

/-- Blanks open nothing and are part of no key. -/
theorem gap_of_isBlank {gap : List Char} (h : ∀ c ∈ gap, isBlank c) :
    ∀ c ∈ gap, closer? c = none ∧ ∀ spelled ∈ spelledKeys, c ∉ spelled.2 := by
  have hopeners : ∀ c ∈ openers, isBlank c = false := forall_of_all (by decide)
  intro c hc
  refine ⟨closer?_eq_none fun hopener => ?_, not_mem_spelling_of_isBlank (h c hc)⟩
  have hblank := h c hc
  rw [hopeners c hopener] at hblank
  cases hblank

/-- The search for modifiers finds the placed keys with their values, and only blanks outside of them. -/
theorem writtenModifiers_line {placed : List PlacedKey} {trailing : List Char}
    (hvalues : ∀ piece ∈ placed, (given.written? piece.key).isSome)
    (hspelling : ∀ piece ∈ placed, piece.spelling ∈ piece.key.spellings)
    (hblank : ∀ piece ∈ placed, ∀ c ∈ piece.gap, isBlank c) (hgaps : ∀ piece ∈ placed.tail, piece.gap ≠ [])
    (htrailing : ∀ c ∈ trailing, isBlank c) :
    ∃ outside, (∀ c ∈ outside, isBlank c) ∧
      writtenModifiers (Segments.ofDelimiter none) (mask (given.line placed trailing)) (given.line placed trailing) =
        (placed.map given.writtenAt, outside) := by
  induction placed with
  | nil =>
    -- Blanks are no key, so what trails is outside as a whole.
    have hgap := gap_of_isBlank htrailing
    have hmask : mask trailing = trailing := mask_plain fun c hc => (hgap c hc).1
    refine ⟨trailing, htrailing, ?_⟩
    show writtenModifiers _ (mask trailing) trailing = _
    rw [hmask, writtenModifiers_of_noKey (noKeyIn_of_not_mem (fun c hc => (hgap c hc).2) [])]
    rfl
  | cons piece placed ih =>
    obtain ⟨hvalue, hvalues⟩ := List.forall_mem_cons.1 hvalues
    obtain ⟨hown, hspelling⟩ := List.forall_mem_cons.1 hspelling
    obtain ⟨hgap, hblank⟩ := List.forall_mem_cons.1 hblank
    obtain ⟨outside, houtside, hrest⟩ :=
      ih hvalues hspelling hblank fun piece hpiece => hgaps piece (List.mem_of_mem_tail hpiece)
    obtain ⟨value, hwritten⟩ := Option.isSome_iff_exists.1 hvalue
    have halone := standsAlone hwritten
    have hkey : (piece.key, piece.spelling.toList) ∈ spelledKeys := mem_spelledKeys.2 ⟨piece.spelling, hown, rfl⟩
    have hhead : given.line placed trailing = [] ∨ ∃ c ∈ (given.line placed trailing).head?, isBlank c :=
      line_head hgaps hblank htrailing
    -- Otherwise a `#` would be read as `##`.
    have hhash : (value ++ given.line placed trailing).head? ≠ some '#' := by
      intro h
      cases value with
      | nil =>
        rcases hhead with hnil | ⟨c, hc, hblank⟩
        · rw [hnil] at h
          cases h
        · obtain rfl := Option.mem_unique hc h
          cases hblank
      | cons c value => exact (halone.head c rfl).2 (Option.some.inj h)
    have hpiece := writtenModifiers_piece hkey (gap_of_isBlank hgap) (fun _ => hhash) (mask_append halone.closed _)
      (halone.valueLength_eq hhead)
    refine ⟨piece.gap ++ ' ' :: outside, ?_, ?_⟩
    · intro c hc
      rcases List.mem_append.1 hc with hmem | hmem
      · exact hgap c hmem
      · rcases List.mem_cons.1 hmem with rfl | hmem
        · decide
        · exact houtside c hmem
    · rw [line_cons, hwritten, Option.getD_some, hpiece, hrest, List.map_cons, writtenAt, hwritten]
      rfl

/-- Modifiers written in any order with any spellings of their keys are read back exactly. -/
theorem extract_line {placed : List PlacedKey} {trailing : List Char} (h : given.Placed placed trailing)
    (settings : Settings) :
    (Modifiers.extract (Segments.ofDelimiter none) settings (String.ofList (given.line placed trailing))).value =
      given.modifiers settings := by
  have hvalues : ∀ piece ∈ placed, (given.written? piece.key).isSome :=
    fun piece hpiece => (h.mem_iff piece.key).1 (List.mem_map_of_mem hpiece)
  obtain ⟨outside, houtside, hwritten⟩ :=
    writtenModifiers_line hvalues h.spelling_mem h.isBlank_gap h.gap_ne_nil h.isBlank_trailing
  have happly : ((Modifiers.ofSettings settings).applyAll (Segments.ofDelimiter none) []
      (placed.map given.writtenAt)).value = given.modifiers settings := by
    rw [← given.only_nil, given.value_applyAll settings hvalues h.nodup fun _ _ => List.not_mem_nil, List.append_nil]
    exact given.only_eq (fun key hkey => List.mem_reverse.2 ((h.mem_iff key).2 hkey)) settings
  have hbare (modifiers : Modifiers) (written : List WrittenModifier) :
      modifiers.applyBareStep (Segments.ofDelimiter none) written outside = pure modifiers := by
    rw [Modifiers.applyBareStep, firstWord?_of_blanks houtside]
    exact ite_self _
  rw [Modifiers.extract, String.toList_ofList, hwritten]
  simp only [Logged.value_bind, happly, hbare, Logged.value_pure]

/-- A number of rounds, a format that looks like modifiers, and a step in days. -/
def roundsFormatStep : GivenModifiers where
  step := some
    { amount :=
        { sign := some '-', whole := ['2'], places := some ['5']
          sign_eq := by simp
          whole_ne_nil := by simp
          isDigit_whole := forall_of_all (by decide)
          places_ne_nil := by simp
          isDigit_places := by simp }
      unit := some 'd'
      unit_mem := by simp [unitLetters] }
  startover := some
    { digits := ['0', '7']
      isDigit_digits := forall_of_all (by decide)
      value_pos := by decide
      value_lt := by decide }
  format := some
    { quote := '\''
      text := ['#', '3', ' ', '?']
      isQuote_quote := by decide
      plain := forall_of_all (by decide) }
  format_ne_nil := by simp
  isLetter_options := by simp

theorem extract_rounds_format_step :
    roundsFormatStep.Placed
        [⟨[], .startover, "##"⟩, ⟨[' '], .format, "~"⟩, ⟨[' ', '\t'], .step, "steps:"⟩] [' '] ∧
      (Modifiers.extract (Segments.ofDelimiter none) {} "##07 ~'#3 ?' \tsteps:-2.5d ").value =
        { step := nearestDecimal true 25 (-1), dateUnit := some .day, frequency := 1, repetition := none,
          startover := some 7, format := some "#3 ?" } := by
  have hgaps : ∀ piece ∈ [PlacedKey.mk [] .startover "##", ⟨[' '], .format, "~"⟩, ⟨[' ', '\t'], .step, "steps:"⟩],
      piece.gap.all fun c => decide (isBlank c) := by
    decide
  have hplaced : roundsFormatStep.Placed
      [⟨[], .startover, "##"⟩, ⟨[' '], .format, "~"⟩, ⟨[' ', '\t'], .step, "steps:"⟩] [' '] :=
    { nodup := by decide
      mem_iff := fun key => by cases key <;> decide
      spelling_mem := by decide
      isBlank_gap := fun piece hpiece => forall_of_all (hgaps piece hpiece)
      gap_ne_nil := by decide
      isBlank_trailing := forall_of_all (by decide) }
  have htext : String.ofList (roundsFormatStep.line
      [⟨[], .startover, "##"⟩, ⟨[' '], .format, "~"⟩, ⟨[' ', '\t'], .step, "steps:"⟩] [' ']) =
      "##07 ~'#3 ?' \tsteps:-2.5d " := by
    decide
  have hread : roundsFormatStep.modifiers {} =
      { step := nearestDecimal true 25 (-1), dateUnit := some .day, frequency := 1, repetition := none,
        startover := some 7, format := some "#3 ?" } := by
    simp [modifiers, roundsFormatStep, DecimalLiteral.value, StepLiteral.dateUnit, unitOfLetter?, CountLiteral.value,
      digitsValue, Modifiers.ofSettings]
  have h := extract_line hplaced {}
  rw [htext, hread] at h
  exact ⟨hplaced, h⟩

end GivenModifiers

end SequenceNotation.Notation
