import SequenceNotation.Proofs.Notation.Boundary
import SequenceNotation.Proofs.Notation.Masking

/-!
# Scanning for modifiers

One step of the search for modifiers: the text in front of the first key is outside of all modifiers, the value
behind the key is a token, and the search goes on behind the value.
-/

namespace SequenceNotation.Notation

open SequenceNotation.Text SequenceNotation.Pattern

variable {delimiter : Option String}

/-- No key starts in a text in front of another one. -/
def NoKeyIn (gap rest : List Char) : Prop :=
  ∀ front tail, gap = front ++ tail → tail ≠ [] → ¬ StartsKey (tail ++ rest)

theorem NoKeyIn.nil (rest : List Char) : NoKeyIn [] rest :=
  fun _ _ h hne => absurd (List.append_eq_nil_iff.1 h.symm).2 hne

/-- No key starts in a text of which no spelling holds a character. -/
theorem noKeyIn_of_not_mem {gap : List Char} (h : ∀ c ∈ gap, ∀ spelled ∈ spelledKeys, c ∉ spelled.2)
    (rest : List Char) : NoKeyIn gap rest := by
  rintro front tail rfl hne
  cases tail with
  | nil => exact absurd rfl hne
  | cons c tail => exact not_startsKey_cons (h c (List.mem_append_right _ List.mem_cons_self))

theorem find?_modifier_of_key {key : ModifierKey} {gap spelling rest : List Char}
    (hkey : (key, spelling) ∈ spelledKeys) (hhash : spelling = ['#'] → rest.head? ≠ some '#')
    (hgap : NoKeyIn gap (spelling ++ rest)) :
    (Segments.ofDelimiter delimiter).find? "modifier" (gap ++ (spelling ++ rest)) =
      some { before := gap, matched := spelling, after := rest, captures := [(key.partName, spelling)] } := by
  have hskip : ∀ tail, tail <:+ gap → tail ≠ [] → ∀ place,
      ((Segments.ofDelimiter delimiter).pattern "modifier").foundAt? place (tail ++ (spelling ++ rest)) = none := by
    rintro tail ⟨front, rfl⟩ hne place
    exact foundAt?_modifier_eq_none (hgap front tail rfl hne)
  have hown : ((Segments.ofDelimiter delimiter).pattern "modifier").foundAt? (0 + gap.length) (spelling ++ rest) =
      some (wordFound (spelling ++ rest) spelling [(key.partName, spelling)]) := by
    rw [foundAt?_modifier, find?_spelledKeys hkey hhash]
    rfl
  rw [Segments.find?, find?, findFrom?_append hskip, findFrom?_of_foundAt? hown]
  simp [wordFound]

theorem find?_modifier_eq_none {text : List Char} (h : NoKeyIn text []) :
    (Segments.ofDelimiter delimiter).find? "modifier" text = none := by
  have hskip : ∀ tail, tail <:+ text → tail ≠ [] → ∀ place,
      ((Segments.ofDelimiter delimiter).pattern "modifier").foundAt? place (tail ++ []) = none := by
    rintro tail ⟨front, rfl⟩ hne place
    exact foundAt?_modifier_eq_none (h front tail rfl hne)
  have hnil : ((Segments.ofDelimiter delimiter).pattern "modifier").findFrom? (0 + text.length) [] = none :=
    foundAt?_modifier_eq_none not_startsKey_nil
  rw [Segments.find?, find?, ← List.append_nil text, findFrom?_append hskip, hnil]
  rfl

/-- What is found is a spelling of a key. -/
theorem exists_of_find?_modifier {masked : List Char} {found : Found}
    (h : (Segments.ofDelimiter delimiter).find? "modifier" masked = some found) :
    ∃ key gap spelling behind, masked = gap ++ (spelling ++ behind) ∧ (key, spelling) ∈ spelledKeys ∧
      found = { before := gap, matched := spelling, after := behind, captures := [(key.partName, spelling)] } := by
  obtain ⟨gap, back, own, rfl, hown, rfl, -⟩ := exists_of_findFrom? h
  rw [foundAt?_modifier] at hown
  obtain ⟨⟨key, spelling⟩, hspelled, rfl⟩ := Option.map_eq_some_iff.1 hown
  obtain ⟨behind, rfl⟩ : spelling <+: back := by simpa using List.find?_some hspelled
  refine ⟨key, gap, spelling, behind, rfl, List.mem_of_find?_eq_some hspelled, ?_⟩
  simp [wordFound]

/-- Where the search for a key is in a whole text does not matter. -/
theorem findFrom?_modifier (place place' : Nat) (text : List Char) :
    ((Segments.ofDelimiter delimiter).pattern "modifier").findFrom? place text =
      ((Segments.ofDelimiter delimiter).pattern "modifier").findFrom? place' text := by
  induction text generalizing place place' with
  | nil =>
    rw [findFrom?, findFrom?, foundAt?_modifier, foundAt?_modifier]
  | cons c rest ih =>
    rw [findFrom?, findFrom?, foundAt?_modifier, foundAt?_modifier, ih (place + 1) (place' + 1)]

/-- The value behind a key is a token whose first character counts in any case. -/
theorem valueLength_token {c : Char} {masked token rest value : List Char} (hc : isBlank c = false)
    (hmasked : byteLength masked = c.utf8Size)
    (htoken : IsToken (EndsToken (delimiterWord? delimiter) keySpellings) token rest) :
    valueLength (Segments.ofDelimiter delimiter) (masked ++ (token ++ rest)) (c :: value) =
      byteLength (masked ++ token) := by
  rw [valueLength, hc, ← boundaryAfter_isToken htoken masked, hmasked]
  rfl

/-- Where the value behind a key is in the text and in the mask, and what of the mask is behind it. -/
theorem splits_of_found {gapMask spelling valueMask gap value : List Char} (hspelling : spelling ≠ [])
    (hgapLength : byteLength gapMask = byteLength gap) (hvalueLength : byteLength valueMask = byteLength value)
    (restMask rest : List Char) :
    splitAtByte (byteLength gapMask) (gap ++ (spelling ++ (value ++ rest))) = (gap, spelling ++ (value ++ rest)) ∧
      (splitAtByte (byteLength value) (valueMask ++ restMask)).2 = restMask ∧
      restMask.length < (gapMask ++ (spelling ++ (valueMask ++ restMask))).length := by
  refine ⟨?_, ?_, ?_⟩
  · rw [hgapLength, splitAtByte_byteLength]
  · rw [← hvalueLength, splitAtByte_byteLength]
  · have hpos : 0 < spelling.length := List.length_pos_iff.2 hspelling
    simp only [List.length_append]
    omega

/-- One step of the search: the modifier that is found first, and what is found behind its value. -/
theorem writtenModifiers_of_found {key : ModifierKey}
    {gapMask spelling valueMask restMask gap value rest : List Char} (hkey : (key, spelling) ∈ spelledKeys)
    (hfound : (Segments.ofDelimiter delimiter).find? "modifier" (gapMask ++ (spelling ++ (valueMask ++ restMask))) =
      some { before := gapMask, matched := spelling, after := valueMask ++ restMask,
             captures := [(key.partName, spelling)] })
    (hgapLength : byteLength gapMask = byteLength gap) (hvalueLength : byteLength valueMask = byteLength value)
    (hvalue : valueLength (Segments.ofDelimiter delimiter) (valueMask ++ restMask) (value ++ rest) =
      byteLength value) :
    writtenModifiers (Segments.ofDelimiter delimiter) (gapMask ++ (spelling ++ (valueMask ++ restMask)))
        (gap ++ (spelling ++ (value ++ rest))) =
      ({ key, keyText := spelling, value := unquote (trim value) } ::
          (writtenModifiers (Segments.ofDelimiter delimiter) restMask rest).1,
        gap ++ ' ' :: (writtenModifiers (Segments.ofDelimiter delimiter) restMask rest).2) := by
  obtain ⟨hsplit, hmask, hshorter⟩ :=
    splits_of_found (spelling_ne_nil hkey) hgapLength hvalueLength restMask rest
  rw [writtenModifiers, hfound]
  simp only [hsplit, splitAtByte_byteLength, hvalue, hmask, if_pos hshorter]
  rw [ofMatch?_of_captures rfl]

/-- A step of the search at a key in front of which no other one starts. -/
theorem writtenModifiers_key {key : ModifierKey} {gap spelling valueMask restMask value rest : List Char}
    (hkey : (key, spelling) ∈ spelledKeys)
    (hhash : spelling = ['#'] → (valueMask ++ restMask).head? ≠ some '#')
    (hgap : NoKeyIn gap (spelling ++ (valueMask ++ restMask))) (hvalueLength : byteLength valueMask = byteLength value)
    (hvalue : valueLength (Segments.ofDelimiter delimiter) (valueMask ++ restMask) (value ++ rest) =
      byteLength value) :
    writtenModifiers (Segments.ofDelimiter delimiter) (gap ++ (spelling ++ (valueMask ++ restMask)))
        (gap ++ (spelling ++ (value ++ rest))) =
      ({ key, keyText := spelling, value := unquote (trim value) } ::
          (writtenModifiers (Segments.ofDelimiter delimiter) restMask rest).1,
        gap ++ ' ' :: (writtenModifiers (Segments.ofDelimiter delimiter) restMask rest).2) :=
  writtenModifiers_of_found hkey (find?_modifier_of_key hkey hhash hgap) rfl hvalueLength hvalue

/-- A key behind a text that opens no literal shows in the mask, with the mask of its value behind it. -/
theorem mask_piece {key : ModifierKey} {gap spelling value rest : List Char} (hkey : (key, spelling) ∈ spelledKeys)
    (hgap : ∀ c ∈ gap, closer? c = none) (hmask : mask (value ++ rest) = mask value ++ mask rest) :
    mask (gap ++ (spelling ++ (value ++ rest))) = gap ++ (spelling ++ (mask value ++ mask rest)) := by
  have hspelling : ∀ c ∈ spelling, closer? c = none := fun c hc => (plain_of_mem_spelling hkey hc).2.2
  rw [mask_append (openAfter_plain hgap), mask_append (openAfter_plain hspelling), mask_plain hgap,
    mask_plain hspelling, hmask]

/-- A modifier between texts that open no literals: what it writes, and what is found behind it. -/
theorem writtenModifiers_piece {key : ModifierKey} {gap spelling value rest : List Char}
    (hkey : (key, spelling) ∈ spelledKeys)
    (hgap : ∀ c ∈ gap, closer? c = none ∧ ∀ spelled ∈ spelledKeys, c ∉ spelled.2)
    (hhash : spelling = ['#'] → (value ++ rest).head? ≠ some '#') (hmask : mask (value ++ rest) = mask value ++ mask rest)
    (hvalue : valueLength (Segments.ofDelimiter delimiter) (mask (value ++ rest)) (value ++ rest) = byteLength value) :
    writtenModifiers (Segments.ofDelimiter delimiter) (mask (gap ++ (spelling ++ (value ++ rest))))
        (gap ++ (spelling ++ (value ++ rest))) =
      ({ key, keyText := spelling, value := unquote (trim value) } ::
          (writtenModifiers (Segments.ofDelimiter delimiter) (mask rest) rest).1,
        gap ++ ' ' :: (writtenModifiers (Segments.ofDelimiter delimiter) (mask rest) rest).2) := by
  rw [hmask] at hvalue
  rw [mask_piece hkey (fun c hc => (hgap c hc).1) hmask]
  refine writtenModifiers_key hkey ?_ (noKeyIn_of_not_mem (fun c hc => (hgap c hc).2) _) (byteLength_maskFrom ..) hvalue
  rw [← hmask, head?_mask]
  exact hhash

/-- Where no key starts, everything is outside of modifiers. -/
theorem writtenModifiers_of_noKey {masked text : List Char} (h : NoKeyIn masked []) :
    writtenModifiers (Segments.ofDelimiter delimiter) masked text = ([], text) := by
  rw [writtenModifiers, find?_modifier_eq_none h]

/-! ### Quotes around values -/

theorem enclosed?_eq_some_iff {quote : Char} {value inner : List Char} :
    enclosed? quote value = some inner ↔ value = quote :: (inner ++ [quote]) := by
  cases value with
  | nil => simp [enclosed?]
  | cons c rest =>
    rcases List.eq_nil_or_concat rest with rfl | ⟨front, d, rfl⟩
    · simp [enclosed?]
    · simp only [enclosed?, List.concat_eq_append, List.getLast?_concat, List.dropLast_concat, List.cons.injEq,
        Option.some.injEq]
      constructor
      · intro h
        split at h
        · rename_i hquote
          obtain ⟨rfl, rfl⟩ := hquote
          cases h
          exact ⟨rfl, rfl⟩
        · cases h
      · rintro ⟨rfl, heq⟩
        obtain ⟨rfl, hd⟩ := List.append_inj' heq rfl
        cases hd
        rw [if_pos ⟨rfl, rfl⟩]

theorem unquote_enclosed {quote : Char} (hquote : isQuote quote) (inner : List Char) :
    unquote (quote :: (inner ++ [quote])) = inner := by
  have hown : enclosed? quote (quote :: (inner ++ [quote])) = some inner := enclosed?_eq_some_iff.2 rfl
  have hother {other : Char} (hne : other ≠ quote) : enclosed? other (quote :: (inner ++ [quote])) = none :=
    if_neg fun h => hne h.1.symm
  have hcases : quote = '"' ∨ quote = '\'' ∨ quote = '\x60' := by simpa [isQuote, or_assoc] using hquote
  rcases hcases with rfl | rfl | rfl
  · rw [unquote, hown]; rfl
  · rw [unquote, hother (by decide), hown]; rfl
  · rw [unquote, hother (by decide), hother (by decide), hown]; rfl

/-- A value that no quotes enclose stays as it is. -/
theorem unquote_eq_self {value : List Char}
    (h : ∀ quote inner, isQuote quote → value ≠ quote :: (inner ++ [quote])) : unquote value = value := by
  have hnone {quote : Char} (hquote : isQuote quote) : enclosed? quote value = none := by
    cases hinner : enclosed? quote value with
    | none => rfl
    | some inner => exact absurd (enclosed?_eq_some_iff.1 hinner) (h quote inner hquote)
  rw [unquote, hnone (by decide), hnone (by decide), hnone (by decide)]
  rfl

end SequenceNotation.Notation
