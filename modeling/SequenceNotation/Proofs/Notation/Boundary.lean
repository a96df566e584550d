import Mathlib.Order.Bounds.Defs
import SequenceNotation.Proofs.Notation.Keys

/-!
# Boundaries

A token ends at the first place where a blank, the user's delimiter or a key stands; inside the body of an expression
keys do not count.  The blanks of a delimiter are lost on the way to its pattern: a delimiter without blanks ends
tokens where it stands, one of nothing but blanks ends them everywhere.
-/

namespace SequenceNotation.Notation

open SequenceNotation.Text SequenceNotation.Pattern

/-! ### Where a token ends -/

/-- The spellings of all keys. -/
def keySpellings : List (List Char) :=
  spelledKeys.map (·.2)

theorem startsKey_iff {text : List Char} : StartsKey text ↔ ∃ key ∈ keySpellings, key <+: text := by
  constructor
  · rintro ⟨spelled, hmem, hprefix⟩
    exact ⟨spelled.2, List.mem_map_of_mem hmem, hprefix⟩
  · rintro ⟨key, hkey, hprefix⟩
    obtain ⟨spelled, hmem, rfl⟩ := List.mem_map.1 hkey
    exact ⟨spelled, hmem, hprefix⟩

/-- A token ends in front of a text: a blank, the delimiter or one of the keys stands there. -/
def EndsToken (delimiter : Option (List Char)) (keys : List (List Char)) (text : List Char) : Prop :=
  (∃ c ∈ text.head?, isBlank c) ∨ (∃ word ∈ delimiter, word <+: text) ∨ ∃ key ∈ keys, key <+: text

instance (delimiter : Option (List Char)) (keys : List (List Char)) (text : List Char) :
    Decidable (EndsToken delimiter keys text) :=
  decidable_of_iff (text.head?.any isBlank ∨ (∃ word ∈ delimiter, word <+: text) ∨ ∃ key ∈ keys, key <+: text)
    (by rw [EndsToken, Option.any_eq_true]; rfl)

/-- A pattern matches exactly in front of the texts with a property. -/
structure Spots (pattern : Pattern) (ends : List Char → Prop) : Prop where
  found : ∀ place text, ends text → ∃ found, pattern.foundAt? place text = some found ∧ found.before = []
  none : ∀ place text, ¬ ends text → pattern.foundAt? place text = none

namespace Spots

variable {pattern pattern' : Pattern} {ends ends' : List Char → Prop}

theorem of_iff (h : Spots pattern ends) (hiff : ∀ text, ends text ↔ ends' text) : Spots pattern ends' :=
  ⟨fun place text hends => h.found place text ((hiff text).2 hends),
    fun place text hends => h.none place text (mt (hiff text).1 hends)⟩

theorem choice (h : Spots pattern ends) (h' : Spots pattern' ends') :
    Spots (.choice pattern pattern') fun text => ends text ∨ ends' text where
  found place text hends := by
    by_cases hown : ends text
    · obtain ⟨found, hfound, hbefore⟩ := h.found place text hown
      exact ⟨found, by rw [foundAt?_choice, hfound]; rfl, hbefore⟩
    · obtain ⟨found, hfound, hbefore⟩ := h'.found place text (hends.resolve_left hown)
      exact ⟨found, by rw [foundAt?_choice, h.none place text hown, hfound]; rfl, hbefore⟩
  none place text hends := by
    obtain ⟨hown, hother⟩ := not_or.1 hends
    rw [foundAt?_choice, h.none place text hown, h'.none place text hother]
    rfl

theorem of_words {words : List (List Char)} (h : pattern.words? = some words) :
    Spots pattern fun text => ∃ word ∈ words, word <+: text where
  found place text hends := by
    obtain ⟨word, hmem, hprefix⟩ := hends
    have hsome : (words.find? (· <+: text)).isSome := List.find?_isSome.2 ⟨word, hmem, decide_eq_true hprefix⟩
    obtain ⟨found, hfound⟩ := Option.isSome_iff_exists.1 hsome
    exact ⟨wordFound text found [], by rw [foundAt?_of_words h, hfound]; rfl, rfl⟩
  none place text hends := by
    rw [foundAt?_of_words h, Option.map_eq_none_iff, List.find?_eq_none]
    exact fun word hmem hprefix => hends ⟨word, hmem, of_decide_eq_true hprefix⟩

theorem one (charClass : CharClass) :
    Spots (.one charClass) fun text => ∃ c ∈ text.head?, charClass.holds c where
  found place text hends := by
    obtain ⟨c, hhead, hc⟩ := hends
    cases text with
    | nil => cases hhead
    | cons d rest =>
      obtain rfl := Option.some.inj hhead
      exact ⟨wordFound (d :: rest) [d] [], by rw [foundAt?_one, if_pos hc], rfl⟩
  none place text hends := by
    cases text with
    | nil => rfl
    | cons c rest => exact (foundAt?_one charClass place c rest).trans (if_neg fun hc => hends ⟨c, rfl, hc⟩)

end Spots

theorem spots_delimiter (delimiter : Option String) :
    Spots (delimiterPattern delimiter) fun text => ∃ word ∈ delimiterWord? delimiter, word <+: text := by
  unfold delimiterPattern
  cases delimiterWord? delimiter with
  | some word => exact (Spots.of_words (words?_textItems word)).of_iff fun text => by simp
  | none =>
    refine (Spots.one (.items true [.blank, .notBlank])).of_iff fun text => ?_
    simp [CharClass.holds, ClassItem.holds]

theorem spots_expressionBoundary (delimiter : Option String) :
    Spots ((Segments.ofDelimiter delimiter).pattern "expr_boundary")
      (EndsToken (delimiterWord? delimiter) []) := by
  rw [pattern_expressionBoundary]
  refine ((Spots.one .blank).choice (spots_delimiter delimiter)).of_iff fun text => ?_
  simp [EndsToken, CharClass.holds]

theorem spots_boundary (delimiter : Option String) :
    Spots ((Segments.ofDelimiter delimiter).pattern "boundary")
      (EndsToken (delimiterWord? delimiter) keySpellings) := by
  rw [pattern_boundary]
  exact (Spots.one .blank).choice ((spots_delimiter delimiter).choice (Spots.of_words words?_keyPattern))

/-! ### Tokens -/

/-- A token and the text behind it: no end lies inside the token, and one lies behind it. -/
structure IsToken (ends : List Char → Prop) (token rest : List Char) : Prop where
  inside : ∀ front tail, token = front ++ tail → tail ≠ [] → ¬ ends (tail ++ rest)
  ended : rest = [] ∨ ends rest

theorem IsToken.nil {ends : List Char → Prop} {rest : List Char} (h : rest = [] ∨ ends rest) :
    IsToken ends [] rest :=
  ⟨fun _ _ hnil hne => absurd (List.append_eq_nil_iff.1 hnil.symm).2 hne, h⟩

theorem IsToken.cons {ends : List Char → Prop} {c : Char} {token rest : List Char}
    (hown : ¬ ends (c :: token ++ rest)) (h : IsToken ends token rest) : IsToken ends (c :: token) rest := by
  refine ⟨fun front tail heq hne => ?_, h.ended⟩
  cases front with
  | nil =>
    cases heq
    exact hown
  | cons d front => exact h.inside front tail (List.cons.inj heq).2 hne

theorem exists_isToken (ends : List Char → Prop) (text : List Char) :
    ∃ token rest, text = token ++ rest ∧ IsToken ends token rest := by
  induction text with
  | nil => exact ⟨[], [], rfl, .nil (.inl rfl)⟩
  | cons c text ih =>
    by_cases hown : ends (c :: text)
    · exact ⟨[], c :: text, rfl, .nil (.inr hown)⟩
    · obtain ⟨token, rest, rfl, htoken⟩ := ih
      exact ⟨c :: token, rest, rfl, .cons hown htoken⟩

theorem offsetAfter_isToken {segments : Segments} {name : String} {ends : List Char → Prop}
    (h : Spots (segments.pattern name) ends) {token rest : List Char} (htoken : IsToken ends token rest)
    (front : List Char) :
    segments.offsetAfter name (front ++ (token ++ rest)) (byteLength front) = byteLength (front ++ token) := by
  have hinside : ∀ tail, tail <:+ token → tail ≠ [] → ∀ place,
      (segments.pattern name).foundAt? place (tail ++ rest) = none := by
    rintro tail ⟨start, rfl⟩ hne place
    exact h.none place _ (htoken.inside start tail rfl hne)
  rw [Segments.offsetAfter]
  split
  · -- the whole text has been passed, so nothing stands behind the token
    rename_i hlength
    rw [byteLength_append, byteLength_append] at hlength
    have hrest : byteLength rest = 0 := by omega
    rw [byteLength_append, byteLength_append, byteLength_append, hrest, Nat.add_zero]
  · rw [splitAtByte_byteLength]
    simp only
    rw [findFrom?_append hinside]
    rcases Classical.em (ends rest) with hends | hends
    · -- the separator is found where the token ends, whatever the place is called
      obtain ⟨found, hfound, hbefore⟩ := h.found (front.length + token.length) rest hends
      rw [findFrom?_of_foundAt? hfound]
      simp [hbefore, byteLength_append]
    · -- the token goes up to the end of the text, where no separator is found
      obtain rfl := htoken.ended.resolve_right hends
      rw [findFrom?, h.none _ _ hends]
      simp

theorem boundaryAfter_isToken {delimiter : Option String} {token rest : List Char}
    (htoken : IsToken (EndsToken (delimiterWord? delimiter) keySpellings) token rest) (front : List Char) :
    (Segments.ofDelimiter delimiter).boundaryAfter (front ++ (token ++ rest)) (byteLength front) =
      byteLength (front ++ token) :=
  offsetAfter_isToken (spots_boundary delimiter) htoken front

theorem expressionBoundaryAfter_isToken {delimiter : Option String} {token rest : List Char}
    (htoken : IsToken (EndsToken (delimiterWord? delimiter) []) token rest) (front : List Char) :
    (Segments.ofDelimiter delimiter).expressionBoundaryAfter (front ++ (token ++ rest)) (byteLength front) =
      byteLength (front ++ token) :=
  offsetAfter_isToken (spots_expressionBoundary delimiter) htoken front

/-! ### The first end -/

/-- The offsets at or behind the end of `front` where a token ends. -/
def tokenEnds (ends : List Char → Prop) (front back : List Char) : Set Nat :=
  {offset | byteLength front ≤ offset ∧ (offset = byteLength (front ++ back) ∨
    ∃ before behind, front ++ back = before ++ behind ∧ offset = byteLength before ∧ ends behind)}

/-- Both boundaries are the first places where tokens end, given a delimiter. -/
def BoundariesEnd (segments : Segments) (delimiter : Option (List Char)) : Prop :=
  ∀ front back,
    IsLeast (tokenEnds (EndsToken delimiter keySpellings) front back)
      (segments.boundaryAfter (front ++ back) (byteLength front)) ∧
    IsLeast (tokenEnds (EndsToken delimiter []) front back)
      (segments.expressionBoundaryAfter (front ++ back) (byteLength front))

/-- Of two fronts of one text the one with fewer bytes comes first. -/
theorem prefix_of_byteLength_le {front front' back back' : List Char} (h : front ++ back = front' ++ back')
    (hle : byteLength front ≤ byteLength front') : front <+: front' := by
  have hprefix : front <+: front' ++ back' := ⟨back, h⟩
  rcases List.prefix_or_prefix_of_prefix hprefix (List.prefix_append front' back') with hshort | ⟨tail, rfl⟩
  · exact hshort
  · cases tail with
    | nil => rw [List.append_nil]
    | cons c tail =>
      have hc := Char.utf8Size_pos c
      rw [byteLength_append, byteLength_cons] at hle
      omega

theorem isLeast_of_isToken {ends : List Char → Prop} {token rest : List Char} (htoken : IsToken ends token rest)
    (front : List Char) :
    IsLeast (tokenEnds ends front (token ++ rest)) (byteLength (front ++ token)) := by
  constructor
  · refine ⟨by rw [byteLength_append]; omega, ?_⟩
    rcases htoken.ended with rfl | hends
    · exact .inl (by rw [List.append_nil])
    · exact .inr ⟨front ++ token, rest, (List.append_assoc front token rest).symm, rfl, hends⟩
  · rintro offset ⟨hfront, rfl | ⟨before, behind, htext, rfl, hends⟩⟩
    · rw [byteLength_append, byteLength_append, byteLength_append]
      omega
    · -- a place in front of the end of the token would lie inside of it
      by_contra hlt
      obtain ⟨start, rfl⟩ := prefix_of_byteLength_le htext hfront
      rw [List.append_assoc, List.append_cancel_left_eq] at htext
      rw [byteLength_append, byteLength_append] at hlt
      obtain ⟨tail, rfl⟩ := prefix_of_byteLength_le htext.symm (by omega)
      refine htoken.inside start tail rfl ?_ ?_
      · rintro rfl
        rw [List.append_nil] at hlt
        omega
      · rw [List.append_assoc, List.append_cancel_left_eq] at htext
        rwa [htext]

/-- The boundaries are the first places where tokens end, the blanks of the delimiter aside. -/
theorem boundariesEnd (delimiter : Option String) :
    BoundariesEnd (Segments.ofDelimiter delimiter) (delimiterWord? delimiter) := by
  intro front back
  constructor
  · obtain ⟨token, rest, rfl, htoken⟩ := exists_isToken (EndsToken (delimiterWord? delimiter) keySpellings) back
    rw [boundaryAfter_isToken htoken]
    exact isLeast_of_isToken htoken front
  · obtain ⟨token, rest, rfl, htoken⟩ := exists_isToken (EndsToken (delimiterWord? delimiter) []) back
    rw [expressionBoundaryAfter_isToken htoken]
    exact isLeast_of_isToken htoken front

theorem delimiterWord?_cons (first : Char) (others : List Char) :
    delimiterWord? (some (String.ofList (first :: others))) = some (withoutBlanks (first :: others)) := by
  have hne : String.ofList (first :: others) ≠ "" := by
    intro h
    have hnil := congrArg String.toList h
    rw [String.toList_ofList] at hnil
    cases hnil
  show (if String.ofList (first :: others) = "" then none else _) = _
  rw [if_neg hne, String.toList_ofList]

/-- Boundaries are where the delimiter stands, its blanks aside; so they are where the delimiter itself stands if and
only if it has no blanks. -/
theorem boundariesEnd_iff (first : Char) (others : List Char) :
    BoundariesEnd (Segments.ofDelimiter (some (String.ofList (first :: others))))
        (some (withoutBlanks (first :: others))) ∧
      (BoundariesEnd (Segments.ofDelimiter (some (String.ofList (first :: others)))) (some (first :: others)) ↔
        ∀ c ∈ first :: others, isBlank c = false) := by
  have hown := boundariesEnd (some (String.ofList (first :: others)))
  rw [delimiterWord?_cons] at hown
  refine ⟨hown, fun hlaw => ?_, fun hblank => ?_⟩
  · -- the delimiter without its blanks ends an expression although the delimiter does not stand there
    let word := withoutBlanks (first :: others)
    have hword : ∀ c ∈ word ++ ['x'], isBlank c = false := by
      intro c hc
      rcases List.mem_append.1 hc with hmem | hmem
      · simpa using (List.mem_filter.1 hmem).2
      · rw [List.mem_singleton.1 hmem]
        decide
    have hzero : (Segments.ofDelimiter (some (String.ofList (first :: others)))).expressionBoundaryAfter
        (word ++ ['x']) 0 = 0 := by
      refine Nat.le_zero.1 ((hown [] (word ++ ['x'])).2.2 ⟨Nat.le_refl 0, .inr ⟨[], word ++ ['x'], rfl, rfl, ?_⟩⟩)
      exact .inr (.inl ⟨word, rfl, List.prefix_append word ['x']⟩)
    have hends := (hlaw [] (word ++ ['x'])).2.1
    rw [List.nil_append, show byteLength [] = 0 from rfl, hzero] at hends
    obtain ⟨-, hall | ⟨before, behind, htext, hbefore, hend⟩⟩ := hends
    · rw [List.nil_append, byteLength_append] at hall
      have hx : byteLength ['x'] = 1 := by decide
      omega
    · obtain rfl := eq_nil_of_byteLength_eq_zero hbefore.symm
      rw [List.nil_append, List.nil_append] at htext
      subst htext
      rcases hend with ⟨c, hhead, hc⟩ | ⟨delimiter, hdelimiter, hprefix⟩ | ⟨key, hkey, -⟩
      · rw [hword c (List.mem_of_mem_head? hhead)] at hc
        cases hc
      · cases hdelimiter
        exact fun c hc => hword c (List.IsPrefix.subset hprefix hc)
      · cases hkey
  · have hsame : withoutBlanks (first :: others) = first :: others :=
      List.filter_eq_self.2 fun c hc => by rw [hblank c hc]; rfl
    rwa [hsame] at hown

/-- A blank as the delimiter ends tokens in front of every character, although none stands there. -/
theorem blank_delimiter_ends_everywhere :
    ((Segments.ofDelimiter (some " ")).boundaryAfter ['x'] 0 = 0 ∧
        IsLeast (tokenEnds (EndsToken (some [' ']) keySpellings) [] ['x']) 1) ∧
      (Segments.ofDelimiter (some " ")).expressionBoundaryAfter ['x'] 0 = 0 ∧
        IsLeast (tokenEnds (EndsToken (some [' ']) []) [] ['x']) 1 := by
  have hword : delimiterWord? (some " ") = some [] := by decide
  have hcode (keys : List (List Char)) : IsToken (EndsToken (delimiterWord? (some " ")) keys) [] ['x'] :=
    .nil (.inr (.inr (.inl ⟨[], hword, List.nil_prefix⟩)))
  have hdocumented {keys : List (List Char)} (hkeys : ¬ EndsToken (some [' ']) keys ['x']) :
      IsToken (EndsToken (some [' ']) keys) ['x'] [] :=
    .cons hkeys (.nil (.inl rfl))
  exact ⟨⟨boundaryAfter_isToken (hcode keySpellings) [], isLeast_of_isToken (hdocumented (by decide)) []⟩,
    expressionBoundaryAfter_isToken (hcode []) [], isLeast_of_isToken (hdocumented (by decide)) []⟩

end SequenceNotation.Notation
