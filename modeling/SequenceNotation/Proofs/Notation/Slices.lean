import SequenceNotation.Proofs.Notation.Marks
import SequenceNotation.Proofs.Notation.Scanning

/-!
# Slices at offsets of the mask

A line is cut at offsets that are found in its mask.  The cuts are checked here: each slice has to begin and to end
between two characters of the text, in this order, and the search for modifiers has to move on with every step.
Unless the delimiter holds the filler, taking lines apart never fails such a check, and no text gets lost.
-/

namespace SequenceNotation.Notation

open SequenceNotation.Text SequenceNotation.Pattern

/-! ### Checked slices -/

/-- Whether an offset lies at one of the ends of a text or between two of its characters. -/
def isPlace (offset : Nat) : List Char → Bool
  | [] => offset = 0
  | c :: rest => offset = 0 || (c.utf8Size ≤ offset && isPlace (offset - c.utf8Size) rest)

/-- The characters from one offset up to another, if both are places of the text and in order. -/
def slice? (start stop : Nat) (text : List Char) : Option (List Char) :=
  if start ≤ stop ∧ isPlace start text ∧ isPlace stop text then some (sliceBytes start stop text) else none

theorem isPlace_byteLength (front back : List Char) : isPlace (byteLength front) (front ++ back) := by
  induction front with
  | nil => cases back <;> rfl
  | cons c front ih => simp [isPlace, byteLength_cons, ih]

theorem slice?_middle (front middle back : List Char) :
    slice? (byteLength front) (byteLength (front ++ middle)) (front ++ (middle ++ back)) = some middle := by
  have hstop : isPlace (byteLength (front ++ middle)) (front ++ (middle ++ back)) := by
    rw [← List.append_assoc]
    exact isPlace_byteLength _ _
  have horder : byteLength front ≤ byteLength (front ++ middle) := by
    rw [byteLength_append]
    omega
  rw [slice?, if_pos ⟨horder, isPlace_byteLength _ _, hstop⟩, sliceBytes, splitAtByte_byteLength, byteLength_append,
    Nat.add_sub_cancel_left, splitAtByte_byteLength]

theorem slice?_back (front back : List Char) :
    slice? (byteLength front) (byteLength (front ++ back)) (front ++ back) = some back := by
  have h := slice?_middle front back []
  rwa [List.append_nil] at h

/-! ### Lines -/

/-- A line taken apart with checked slices. -/
def classify? (segments : Segments) (defaultStart line : String) : Option Classified :=
  let text := trim line.toList
  let masked := mask text
  match findMark? segments masked with
  | some (mark, bodyStart) => do
    let bodyEnd := mark.bodyEnd segments masked bodyStart
    let body ← slice? bodyStart bodyEnd text
    let remainder ← slice? bodyEnd (byteLength text) text
    return { start := mark.read segments body, remainder := String.ofList remainder }
  | none => do
    let bodyEnd := segments.boundaryAfter masked 0
    let body ← slice? 0 bodyEnd text
    let remainder ← slice? bodyEnd (byteLength text) text
    return { start := readUnmarked segments defaultStart body, remainder := String.ofList remainder }

/-- A text taken apart: a mark, the body from which the start is read, and the remainder behind the place where the
body ends. -/
def TakenApart (segments : Segments) (defaultStart : String) (text : List Char) (classified : Classified) : Prop :=
  ∃ mark body remainder, text = mark ++ (body ++ remainder) ∧ classified.remainder = String.ofList remainder ∧
    match findMark? segments (mask text) with
    | some (kind, bodyStart) =>
      bodyStart = byteLength mark ∧ kind.bodyEnd segments (mask text) bodyStart = byteLength (mark ++ body) ∧
        classified.start = kind.read segments body
    | none =>
      mark = [] ∧ segments.boundaryAfter (mask text) 0 = byteLength body ∧
        classified.start = readUnmarked segments defaultStart body

/-- A value without the quotes that enclose it, cut with a checked slice. -/
def unquote? (value : List Char) : Option (List Char) :=
  let encloses (quote : Char) : Bool :=
    2 ≤ byteLength value && value.head? = some quote && value.getLast? = some quote
  if ['"', '\'', '\x60'].any encloses then slice? 1 (byteLength value - 1) value else some value

/-- Where the value behind a key ends, as an offset into the whole text. -/
def valueEnd (segments : Segments) (masked behind : List Char) (keyEnd : Nat) : Nat :=
  match behind with
  | [] => keyEnd
  | c :: _ => if isBlank c then keyEnd else segments.boundaryAfter masked (keyEnd + c.utf8Size)

/-- The search for modifiers by offsets into the whole text, where each slice is checked and each step has to move
on. -/
def scan? (segments : Segments) (masked text : List Char) (position : Nat) :
    Option (List WrittenModifier × List Char) :=
  if byteLength masked ≤ position then some ([], [])
  else
    let (front, back) := splitAtByte position masked
    match (segments.pattern "modifier").findFrom? front.length back with
    | none => (slice? position (byteLength text) text).map ([], ·)
    | some found => do
      let keyStart := position + byteLength found.before
      let keyEnd := keyStart + byteLength found.matched
      let bare ← slice? position keyStart text
      let behind ← slice? keyEnd (byteLength text) text
      let stop := valueEnd segments masked behind keyEnd
      let value ← slice? keyEnd stop text
      let value ← unquote? (trim value)
      if position < stop then
        let (modifiers, outside) ← scan? segments masked text stop
        let modifiers := match ModifierKey.ofMatch? found with
          | some key => { key, keyText := found.matched, value } :: modifiers
          | none => modifiers
        return (modifiers, bare ++ ' ' :: outside)
      else none
termination_by byteLength masked - position
decreasing_by exact Nat.sub_lt_sub_left (Nat.lt_of_not_le ‹¬byteLength masked ≤ position›) ‹position < _›

theorem keySpellings_shown : ∀ key ∈ keySpellings, key ≠ [] ∧ filler ∉ key := by
  intro key hkey
  obtain ⟨spelled, hmem, rfl⟩ := List.mem_map.1 hkey
  exact ⟨spelling_ne_nil hmem, fun hfiller => (plain_of_mem_spelling hmem hfiller).2.1 rfl⟩

theorem unquote?_eq (value : List Char) : unquote? value = some (unquote value) := by
  have hmem {quote : Char} : quote ∈ ['"', '\'', '\x60'] ↔ isQuote quote := by simp [isQuote, or_assoc]
  by_cases h : ∃ quote inner, isQuote quote ∧ value = quote :: (inner ++ [quote])
  · obtain ⟨quote, inner, hquote, rfl⟩ := h
    have hone : byteLength [quote] = 1 := by
      have hall : ∀ quote ∈ ['"', '\'', '\x60'], byteLength [quote] = 1 := forall_of_all (by decide)
      exact hall quote (hmem.2 hquote)
    have hlength : byteLength (quote :: (inner ++ [quote])) = byteLength ([quote] ++ inner) + 1 := by
      rw [show quote :: (inner ++ [quote]) = [quote] ++ inner ++ [quote] from rfl, byteLength_append _ [quote], hone]
    have hslice := slice?_middle [quote] inner [quote]
    rw [hone] at hslice
    rw [unquote_enclosed hquote, unquote?, if_pos, hlength, Nat.add_sub_cancel]
    · exact hslice
    · refine List.any_eq_true.2 ⟨quote, hmem.2 hquote, ?_⟩
      have htwo : 2 ≤ byteLength (quote :: (inner ++ [quote])) := by
        rw [hlength, byteLength_append, hone]
        omega
      simp [htwo, List.getLast?_cons]
  · have hnot (quote : Char) (inner : List Char) (hquote : isQuote quote) : value ≠ quote :: (inner ++ [quote]) :=
      fun heq => h ⟨quote, inner, hquote, heq⟩
    rw [unquote_eq_self hnot, unquote?, if_neg]
    -- A value of two bytes at least that begins and ends with a quote would enclose something.
    intro hany
    obtain ⟨quote, hquote, hencloses⟩ := List.any_eq_true.1 hany
    simp only [Bool.and_eq_true, decide_eq_true_eq] at hencloses
    obtain ⟨⟨htwo, hhead⟩, hlast⟩ := hencloses
    obtain ⟨rest, rfl⟩ := List.head?_eq_some_iff.1 hhead
    rcases List.eq_nil_or_concat rest with rfl | ⟨inner, last, rfl⟩
    · have hall : ∀ quote ∈ ['"', '\'', '\x60'], byteLength [quote] = 1 := forall_of_all (by decide)
      rw [hall quote hquote] at htwo
      omega
    · rw [List.concat_eq_append, ← List.cons_append, List.getLast?_concat] at hlast
      cases hlast
      exact hnot _ inner (hmem.1 hquote) (by rw [List.concat_eq_append])

theorem valueLength_eq (segments : Segments) (masked behind : List Char) :
    valueLength segments masked behind = valueEnd segments masked behind 0 := by
  cases behind with
  | nil => rfl
  | cons c behind => rw [valueLength, valueEnd, Nat.zero_add]

/-- One checked step of the search. -/
theorem scan?_key {delimiter : Option String} {key : ModifierKey} {front gap spelling value rest : List Char}
    (hkey : (key, spelling) ∈ spelledKeys)
    (hfound : (Segments.ofDelimiter delimiter).find? "modifier" (maskFrom (openAfter .none front)
        (gap ++ (spelling ++ (value ++ rest)))) =
      some { before := maskFrom (openAfter .none front) gap, matched := spelling,
             after := maskFrom (openAfter .none (front ++ (gap ++ spelling))) (value ++ rest),
             captures := [(key.partName, spelling)] })
    (hvalue : valueEnd (Segments.ofDelimiter delimiter) (mask (front ++ (gap ++ (spelling ++ (value ++ rest)))))
        (value ++ rest) (byteLength (front ++ (gap ++ spelling))) =
      byteLength (front ++ (gap ++ (spelling ++ value)))) :
    scan? (Segments.ofDelimiter delimiter) (mask (front ++ (gap ++ (spelling ++ (value ++ rest)))))
        (front ++ (gap ++ (spelling ++ (value ++ rest)))) (byteLength front) =
      (scan? (Segments.ofDelimiter delimiter) (mask (front ++ (gap ++ (spelling ++ (value ++ rest)))))
        (front ++ (gap ++ (spelling ++ (value ++ rest))))
        (byteLength (front ++ (gap ++ (spelling ++ value))))).map fun (modifiers, outside) =>
          ({ key, keyText := spelling, value := unquote (trim value) } :: modifiers, gap ++ ' ' :: outside) := by
  have hpos : 0 < byteLength spelling :=
    Nat.pos_of_ne_zero fun hzero => spelling_ne_nil hkey (eq_nil_of_byteLength_eq_zero hzero)
  have hinside : ¬ byteLength (mask (front ++ (gap ++ (spelling ++ (value ++ rest))))) ≤ byteLength front := by
    rw [mask, byteLength_maskFrom]
    simp only [byteLength_append]
    omega
  have hsplit : splitAtByte (byteLength front) (mask (front ++ (gap ++ (spelling ++ (value ++ rest))))) =
      (maskFrom .none front, maskFrom (openAfter .none front) (gap ++ (spelling ++ (value ++ rest)))) := by
    rw [mask, maskFrom_append, ← byteLength_maskFrom .none front, splitAtByte_byteLength]
  have hmoved : byteLength front < byteLength (front ++ (gap ++ (spelling ++ value))) := by
    simp only [byteLength_append]
    omega
  have hbare := slice?_middle front gap (spelling ++ (value ++ rest))
  have hbehind : slice? (byteLength (front ++ (gap ++ spelling)))
      (byteLength (front ++ (gap ++ (spelling ++ (value ++ rest)))))
      (front ++ (gap ++ (spelling ++ (value ++ rest)))) = some (value ++ rest) := by
    have h := slice?_back (front ++ (gap ++ spelling)) (value ++ rest)
    simpa only [List.append_assoc] using h
  have hvalueSlice : slice? (byteLength (front ++ (gap ++ spelling)))
      (byteLength (front ++ (gap ++ (spelling ++ value))))
      (front ++ (gap ++ (spelling ++ (value ++ rest)))) = some value := by
    have h := slice?_middle (front ++ (gap ++ spelling)) value rest
    simpa only [List.append_assoc] using h
  have hstart : byteLength front + byteLength (maskFrom (openAfter .none front) gap) = byteLength (front ++ gap) := by
    rw [byteLength_maskFrom, byteLength_append]
  have hkeyEnd : byteLength (front ++ gap) + byteLength spelling = byteLength (front ++ (gap ++ spelling)) := by
    rw [← byteLength_append, List.append_assoc]
  have hfindFrom := (findFrom?_modifier (maskFrom .none front).length 0 _).trans hfound
  rw [scan?, if_neg hinside, hsplit]
  simp only [hfindFrom, hstart, hkeyEnd, hbare, hbehind, hvalue, hvalueSlice, unquote?_eq, if_pos hmoved,
    Option.bind_eq_bind, Option.bind_some]
  rw [ofMatch?_of_captures rfl]
  cases scan? (Segments.ofDelimiter delimiter) (mask (front ++ (gap ++ (spelling ++ (value ++ rest)))))
    (front ++ (gap ++ (spelling ++ (value ++ rest)))) (byteLength (front ++ (gap ++ (spelling ++ value)))) <;> rfl

/-- Without a key the search by checked slices ends, at the end of the text or in front of what is left. -/
theorem scan?_of_find?_eq_none {delimiter : Option String} {front back : List Char}
    (hfound : (Segments.ofDelimiter delimiter).find? "modifier" (maskFrom (openAfter .none front) back) = none) :
    scan? (Segments.ofDelimiter delimiter) (mask (front ++ back)) (front ++ back) (byteLength front) =
      some ([], back) := by
  rw [scan?]
  split
  · rename_i hended
    rw [mask, byteLength_maskFrom, byteLength_append] at hended
    have hback : back = [] := eq_nil_of_byteLength_eq_zero (by omega)
    rw [hback]
  · have hmasked : mask (front ++ back) = maskFrom .none front ++ maskFrom (openAfter .none front) back :=
      maskFrom_append ..
    rw [hmasked, ← byteLength_maskFrom .none front, splitAtByte_byteLength, byteLength_maskFrom]
    simp only [(findFrom?_modifier (maskFrom .none front).length 0 _).trans hfound, slice?_back, Option.map_some]

/-- A key that is found in a mask stands in the text, with its gap in front of it. -/
theorem exists_of_find?_mask {delimiter : Option String} {literals : OpenLiterals} {back : List Char} {found : Found}
    (hfound : (Segments.ofDelimiter delimiter).find? "modifier" (maskFrom literals back) = some found) :
    ∃ key gap spelling behind, back = gap ++ (spelling ++ behind) ∧ (key, spelling) ∈ spelledKeys ∧
      maskFrom literals back =
        maskFrom literals gap ++ (spelling ++ maskFrom (openAfter literals (gap ++ spelling)) behind) ∧
      found = { before := maskFrom literals gap, matched := spelling,
                after := maskFrom (openAfter literals (gap ++ spelling)) behind,
                captures := [(key.partName, spelling)] } := by
  obtain ⟨key, gapMask, spelling, behindMask, hmask, hkey, rfl⟩ := exists_of_find?_modifier hfound
  have hfiller : filler ∉ spelling := fun hmem => (plain_of_mem_spelling hkey hmem).2.1 rfl
  have hshown : (spelling ++ behindMask).head? ≠ some filler := by
    intro hhead
    rw [List.head?_append_of_ne_nil _ (spelling_ne_nil hkey)] at hhead
    exact hfiller (List.mem_of_mem_head? hhead)
  obtain ⟨gap, back', rfl, rfl, hback⟩ := exists_of_maskFrom_eq hmask hshown
  obtain ⟨behind, rfl, rfl⟩ := exists_of_maskFrom_eq_word hback.symm hfiller
  rw [← openAfter_append] at hmask ⊢
  exact ⟨key, gap, spelling, behind, rfl, hkey, hmask, rfl⟩

section Places

/-- Without a delimiter there is none with a filler in it. -/
theorem filler_not_mem_none : ∀ text ∈ (none : Option String), filler ∉ text.toList := by
  intro text htext
  cases htext

variable {delimiter : Option String} (hdelimiter : ∀ text ∈ delimiter, filler ∉ text.toList)

include hdelimiter

theorem filler_not_mem_delimiterWord {word : List Char} (h : word ∈ delimiterWord? delimiter) : filler ∉ word := by
  unfold delimiterWord? at h
  split at h
  · split at h
    · cases h
    · cases h
      exact fun hmem => hdelimiter _ rfl (List.mem_filter.1 hmem).1
  · cases h

/-- Where a token of a mask ends is a place of the text. -/
theorem exists_of_isToken {token rest text : List Char} {literals : OpenLiterals}
    {keys : List (List Char)} (hkeys : ∀ key ∈ keys, key ≠ [] ∧ filler ∉ key)
    (htoken : IsToken (EndsToken (delimiterWord? delimiter) keys) token rest)
    (hmask : maskFrom literals text = token ++ rest) :
    ∃ value behind, text = value ++ behind ∧ token = maskFrom literals value ∧
      rest = maskFrom (openAfter literals value) behind := by
  have hword {word : List Char} (hstart : word <+: rest) (hne : word ≠ []) (hfiller : filler ∉ word) :
      rest.head? ≠ some filler := by
    cases word with
    | nil => exact absurd rfl hne
    | cons c word =>
      obtain ⟨tail, rfl⟩ := hstart
      rintro ⟨⟩
      exact hfiller List.mem_cons_self
  by_cases hnil : token = []
  · subst hnil
    exact ⟨[], text, rfl, rfl, hmask.symm⟩
  · refine exists_of_maskFrom_eq hmask ?_
    rcases htoken.ended with rfl | ⟨c, hhead, hc⟩ | ⟨word, hmem, hprefix⟩ | ⟨key, hmem, hprefix⟩
    · exact fun h => by cases h
    · rintro hfiller
      rw [hfiller] at hhead
      cases hhead
      cases hc
    · -- an empty delimiter would have ended the token at its start
      refine hword hprefix ?_ (filler_not_mem_delimiterWord hdelimiter hmem)
      rintro rfl
      exact htoken.inside [] token rfl hnil (.inr (.inl ⟨[], hmem, List.nil_prefix⟩))
    · exact hword hprefix (hkeys key hmem).1 (hkeys key hmem).2

/-- Both boundaries behind a place of the text are places of the text. -/
theorem exists_boundaryAfter (literals : OpenLiterals) (text : List Char) :
    ∃ value rest, text = value ++ rest ∧ ∀ front,
      (Segments.ofDelimiter delimiter).boundaryAfter (front ++ maskFrom literals text) (byteLength front) =
        byteLength front + byteLength value := by
  obtain ⟨token, rest, hmask, htoken⟩ :=
    exists_isToken (EndsToken (delimiterWord? delimiter) keySpellings) (maskFrom literals text)
  obtain ⟨value, behind, rfl, rfl, -⟩ := exists_of_isToken hdelimiter keySpellings_shown htoken hmask
  refine ⟨value, behind, rfl, fun front => ?_⟩
  rw [hmask, boundaryAfter_isToken htoken, byteLength_append, byteLength_maskFrom]

theorem exists_expressionBoundaryAfter (literals : OpenLiterals) (text : List Char) :
    ∃ value rest, text = value ++ rest ∧ ∀ front,
      (Segments.ofDelimiter delimiter).expressionBoundaryAfter (front ++ maskFrom literals text) (byteLength front) =
        byteLength front + byteLength value := by
  obtain ⟨token, rest, hmask, htoken⟩ :=
    exists_isToken (EndsToken (delimiterWord? delimiter) []) (maskFrom literals text)
  obtain ⟨value, behind, rfl, rfl, -⟩ :=
    exists_of_isToken hdelimiter (fun _ h => absurd h List.not_mem_nil) htoken hmask
  refine ⟨value, behind, rfl, fun front => ?_⟩
  rw [hmask, expressionBoundaryAfter_isToken htoken, byteLength_append, byteLength_maskFrom]

theorem exists_bodyEnd (mark : StartMark) (literals : OpenLiterals) (text : List Char) :
    ∃ body rest, text = body ++ rest ∧ ∀ front,
      mark.bodyEnd (Segments.ofDelimiter delimiter) (front ++ maskFrom literals text) (byteLength front) =
        byteLength front + byteLength body := by
  cases mark with
  | expression => exact exists_expressionBoundaryAfter hdelimiter literals text
  | date | ownList | predefined | function => exact exists_boundaryAfter hdelimiter literals text

omit hdelimiter in
/-- The bytes that a mark takes are those of a text that shows in front of the line. -/
theorem exists_of_findMark? {text : List Char} {mark : StartMark} {bodyStart : Nat}
    (h : findMark? (Segments.ofDelimiter delimiter) (mask text) = some (mark, bodyStart)) :
    ∃ front back, text = front ++ back ∧ bodyStart = byteLength front := by
  obtain ⟨kind, -, hkind⟩ := List.exists_of_findSome?_eq_some h
  obtain ⟨found, hfound, heq⟩ := Option.map_eq_some_iff.1 hkind
  rw [find?_mark] at hfound
  obtain ⟨word, hword, rfl⟩ := Option.map_eq_some_iff.1 hfound
  obtain ⟨rest, hrest⟩ : word <+: mask text := by simpa using List.find?_some hword
  obtain ⟨behind, rfl, -⟩ :=
    exists_of_maskFrom_eq_word hrest.symm (filler_not_mem_mark (List.mem_of_find?_eq_some hword))
  rw [StartMark.bytesInFront] at heq
  split at heq
  · exact ⟨[], _, rfl, (Prod.mk.inj heq).2.symm⟩
  · exact ⟨word, behind, rfl, (Prod.mk.inj heq).2.symm⟩

/-- A line is taken apart without loss. -/
theorem takenApart_classify (defaultStart line : String) :
    TakenApart (Segments.ofDelimiter delimiter) defaultStart (trim line.toList)
      (classify (Segments.ofDelimiter delimiter) defaultStart line) := by
  rw [classify]
  generalize trim line.toList = text
  cases hmark : findMark? (Segments.ofDelimiter delimiter) (mask text) with
  | some found =>
    obtain ⟨mark, bodyStart⟩ := found
    obtain ⟨front, back, rfl, rfl⟩ := exists_of_findMark? hmark
    obtain ⟨body, rest, rfl, hbody⟩ := exists_bodyEnd hdelimiter mark (openAfter .none front) back
    have hend : mark.bodyEnd (Segments.ofDelimiter delimiter) (mask (front ++ (body ++ rest))) (byteLength front) =
        byteLength (front ++ body) := by
      rw [mask, maskFrom_append, ← byteLength_maskFrom .none front, hbody, byteLength_append, byteLength_maskFrom]
    have hslice : sliceBytes (byteLength front) (byteLength (front ++ body)) (front ++ (body ++ rest)) = body := by
      rw [sliceBytes, splitAtByte_byteLength, byteLength_append, Nat.add_sub_cancel_left, splitAtByte_byteLength]
    have hrest : (splitAtByte (byteLength (front ++ body)) (front ++ (body ++ rest))).2 = rest := by
      rw [← List.append_assoc, splitAtByte_byteLength]
    refine ⟨front, body, rest, rfl, ?_, ?_⟩
    · simp only [hend, hrest]
    · simp only [hmark, hend, hslice, and_self]
  | none =>
    -- Without a mark the body begins with the text.
    obtain ⟨body, rest, rfl, hbody⟩ := exists_boundaryAfter hdelimiter .none text
    have hend : (Segments.ofDelimiter delimiter).boundaryAfter (mask (body ++ rest)) 0 = byteLength body :=
      (hbody []).trans (Nat.zero_add _)
    refine ⟨[], body, rest, rfl, ?_, ?_⟩
    · simp only [hend, splitAtByte_byteLength]
    · simp only [hmark, hend, splitAtByte_byteLength, and_self]

/-- Checks do not change how a line is taken apart. -/
theorem classify?_eq (defaultStart line : String) :
    classify? (Segments.ofDelimiter delimiter) defaultStart line =
      some (classify (Segments.ofDelimiter delimiter) defaultStart line) := by
  obtain ⟨front, body, rest, htext, hremainder, hstart⟩ := takenApart_classify hdelimiter defaultStart line
  revert hremainder hstart
  generalize classify (Segments.ofDelimiter delimiter) defaultStart line = classified
  obtain ⟨start, remainder⟩ := classified
  intro hremainder hstart
  obtain rfl : remainder = String.ofList rest := hremainder
  rw [classify?]
  simp only [htext] at hstart ⊢
  have hrest : slice? (byteLength (front ++ body)) (byteLength (front ++ (body ++ rest)))
      (front ++ (body ++ rest)) = some rest := by
    rw [← List.append_assoc]
    exact slice?_back _ _
  split at hstart
  · rename_i mark bodyStart hmark
    obtain ⟨rfl, hend, rfl⟩ := hstart
    simp only [hend, slice?_middle, hrest]
    rfl
  · rename_i hmark
    obtain ⟨rfl, hend, rfl⟩ := hstart
    have hbody : slice? 0 (byteLength body) (body ++ rest) = some body := slice?_middle [] body rest
    have hrest' : slice? (byteLength body) (byteLength (body ++ rest)) (body ++ rest) = some rest := hrest
    simp only [List.nil_append] at hend hmark ⊢
    simp only [hend, hbody, hrest']
    rfl

/-- Where a value ends is a place of the text. -/
theorem exists_valueEnd (literals : OpenLiterals) (behind : List Char) :
    ∃ value rest, behind = value ++ rest ∧ ∀ front,
      valueEnd (Segments.ofDelimiter delimiter) (front ++ maskFrom literals behind) behind (byteLength front) =
        byteLength front + byteLength value := by
  cases behind with
  | nil => exact ⟨[], [], rfl, fun front => rfl⟩
  | cons c behind =>
    cases hblank : isBlank c with
    | true => exact ⟨[], c :: behind, rfl, fun front => by rw [valueEnd, if_pos hblank]; rfl⟩
    | false =>
      obtain ⟨value, rest, rfl, hvalue⟩ := exists_boundaryAfter hdelimiter (literals.after c) behind
      refine ⟨c :: value, rest, rfl, fun front => ?_⟩
      have hstart : byteLength front + c.utf8Size = byteLength (front ++ maskedChar literals c) := by
        rw [byteLength_append, byteLength_maskedChar]
      rw [valueEnd, hblank, maskFrom_cons, hstart, ← List.append_assoc]
      exact (hvalue _).trans (by rw [← hstart, byteLength_cons, Nat.add_assoc])

/-- The search by checked slices finds what the search finds. -/
theorem scan?_eq (front back : List Char) :
    scan? (Segments.ofDelimiter delimiter) (mask (front ++ back)) (front ++ back) (byteLength front) =
      some (writtenModifiers (Segments.ofDelimiter delimiter) (maskFrom (openAfter .none front) back) back) := by
  induction hlength : back.length using Nat.strongRecOn generalizing front back with
  | ind n ih =>
    cases hfound : (Segments.ofDelimiter delimiter).find? "modifier" (maskFrom (openAfter .none front) back) with
    | none =>
      rw [writtenModifiers, hfound]
      exact scan?_of_find?_eq_none hfound
    | some found =>
      -- the place of the key, its text and the end of its value are places of the text
      obtain ⟨key, gap, spelling, behind, rfl, hkey, hmask, rfl⟩ := exists_of_find?_mask hfound
      rw [← openAfter_append] at hfound hmask
      obtain ⟨value, rest, rfl, hvalue⟩ :=
        exists_valueEnd hdelimiter (openAfter .none (front ++ (gap ++ spelling))) behind
      have hend : valueEnd (Segments.ofDelimiter delimiter) (mask (front ++ (gap ++ (spelling ++ (value ++ rest)))))
          (value ++ rest) (byteLength (front ++ (gap ++ spelling))) =
          byteLength (front ++ (gap ++ (spelling ++ value))) := by
        have h := hvalue (maskFrom .none (front ++ (gap ++ spelling)))
        rw [← maskFrom_append, byteLength_maskFrom] at h
        simpa only [mask, List.append_assoc, byteLength_append, Nat.add_assoc] using h
      -- behind the value the search goes on in a shorter text
      have hshorter : rest.length < n := by
        have hpos : 0 < spelling.length := List.length_pos_iff.2 (spelling_ne_nil hkey)
        simp only [List.length_append] at hlength
        omega
      have hrest := ih rest.length hshorter (front ++ (gap ++ (spelling ++ value))) rest rfl
      simp only [List.append_assoc] at hrest
      rw [scan?_key hkey hfound hend, hrest, hmask]
      rw [hmask] at hfound
      rw [maskFrom_append _ value rest] at hfound ⊢
      have hlength' : valueLength (Segments.ofDelimiter delimiter)
          (maskFrom (openAfter .none (front ++ (gap ++ spelling))) value ++
            maskFrom (openAfter (openAfter .none (front ++ (gap ++ spelling))) value) rest)
          (value ++ rest) = byteLength value := by
        rw [valueLength_eq, ← maskFrom_append]
        exact (hvalue []).trans (Nat.zero_add _)
      rw [writtenModifiers_of_found hkey hfound (byteLength_maskFrom ..) (byteLength_maskFrom ..) hlength']
      simp only [openAfter_append, Option.map_some]

end Places

/-- The modifiers of a text whose search is checked. -/
def extract? (segments : Segments) (settings : Settings) (remainder : String) : Option (Logged Modifiers) :=
  (scan? segments (mask remainder.toList) remainder.toList 0).map fun (written, outside) => do
    let modifiers ← (Modifiers.ofSettings settings).applyAll segments [] written
    let modifiers ← modifiers.applyBareStep segments written outside
    Logged.debug ("modifiers: " ++ modifiers.recordText)
    return modifiers

/-- Unless the delimiter holds the filler, no check of a slice fails, and every search moves on until it ends: lines
and modifiers are read as without checks, and a line is taken apart without loss. -/
theorem slices_between_characters {delimiter : Option String} (hdelimiter : ∀ text ∈ delimiter, filler ∉ text.toList)
    (settings : Settings) (defaultStart line remainder : String) :
    classify? (Segments.ofDelimiter delimiter) defaultStart line =
        some (classify (Segments.ofDelimiter delimiter) defaultStart line) ∧
      TakenApart (Segments.ofDelimiter delimiter) defaultStart (trim line.toList)
        (classify (Segments.ofDelimiter delimiter) defaultStart line) ∧
      extract? (Segments.ofDelimiter delimiter) settings remainder =
        some (Modifiers.extract (Segments.ofDelimiter delimiter) settings remainder) := by
  refine ⟨classify?_eq hdelimiter defaultStart line, takenApart_classify hdelimiter defaultStart line, ?_⟩
  have hscan : scan? (Segments.ofDelimiter delimiter) (mask remainder.toList) remainder.toList 0 =
      some (writtenModifiers (Segments.ofDelimiter delimiter) (mask remainder.toList) remainder.toList) :=
    scan?_eq hdelimiter [] remainder.toList
  rw [extract?, hscan]
  rfl

/-- A line of wide characters under a delimiter of the user's choice. -/
theorem slices_of_wide_characters :
    (∀ text ∈ some "→", filler ∉ text.toList) ∧
      classify? (Segments.ofDelimiter (some "→")) "1" " [ä ö]→~'ü' " =
        some (classify (Segments.ofDelimiter (some "→")) "1" " [ä ö]→~'ü' ") := by
  have hdelimiter : ∀ text ∈ some "→", filler ∉ text.toList := by
    intro text htext
    cases htext
    decide
  exact ⟨hdelimiter, (slices_between_characters hdelimiter {} "1" " [ä ö]→~'ü' " "").1⟩

end SequenceNotation.Notation
