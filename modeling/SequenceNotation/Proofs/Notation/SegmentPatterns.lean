import SequenceNotation.Notation.Modifiers
import SequenceNotation.Proofs.Pattern.EscapedText
import SequenceNotation.Proofs.Pattern.Groups

/-!
# Patterns of the segments

What the definitions of the segments come to.  The user's delimiter is read as the text itself, blanks aside, and
only the boundaries depend on it.  The segment for keys spells the keys of modifiers, and a boundary is a blank, the
delimiter or the start of a key.
-/

namespace SequenceNotation.Notation

open SequenceNotation.Text SequenceNotation.Pattern

/-! ### Definitions that no delimiter changes -/

def fixedDefinitions : Definitions :=
  sharedDefinitions ++ keyDefinitions ++ markDefinitions ++ bodyDefinitions ++ valueDefinitions

def fixedNames : List String :=
  ["sign", "number", "step_key", "format_key", "frequency_key", "startover_key", "repetition_key", "expression_key",
   "stop_key", "options_key", "modifier_start", "modifier", "date_prefix", "own_prefix", "predef_prefix",
   "expr_prefix", "func_prefix", "decimal_body", "alpha_body", "date_body", "own_body", "predef_body", "func_body",
   "expr_body", "step_value", "count_value", "bare_step"]

/-- The names to which other definitions refer. -/
def sharedNames : List String :=
  ["sign", "number", "step_key", "format_key", "frequency_key", "startover_key", "repetition_key", "expression_key",
   "stop_key", "options_key"]

/-- A definition refers to some names at most. -/
def RefersTo (names : List String) (name : String) : Prop :=
  ∃ source text, fixedDefinitions.lookup name = some source ∧ source.toList = text ∧
    ∀ other ∈ references text, other ∈ names

theorem RefersTo.isSome {names : List String} {name : String} (h : RefersTo names name) {levels : Nat}
    (hnames : ∀ other ∈ names, (expansion? fixedDefinitions levels other).isSome) :
    (expansion? fixedDefinitions (levels + 1) name).isSome := by
  obtain ⟨source, text, hlookup, htext, hrefs⟩ := h
  exact isSome_expansion? hlookup htext fun other hmem => hnames other (hrefs other hmem)

theorem refersTo_sign : RefersTo [] "sign" :=
  ⟨_, _, rfl, String.toList_ofList, by decide⟩

theorem refersTo_shared : ∀ name ∈ sharedNames, RefersTo ["sign"] name := by
  simp only [sharedNames, List.forall_mem_cons]
  refine ⟨?_, ?_, ?_, ?_, ?_, ?_, ?_, ?_, ?_, ?_, fun _ h => absurd h List.not_mem_nil⟩ <;>
    exact ⟨_, _, rfl, String.toList_ofList, by decide⟩

set_option maxRecDepth 2000 in
theorem refersTo_fixed : ∀ name ∈ fixedNames, RefersTo sharedNames name := by
  simp only [fixedNames, List.forall_mem_cons]
  refine ⟨?_, ?_, ?_, ?_, ?_, ?_, ?_, ?_, ?_, ?_, ?_, ?_, ?_, ?_, ?_, ?_, ?_, ?_, ?_, ?_, ?_, ?_, ?_, ?_, ?_, ?_, ?_,
    fun _ h => absurd h List.not_mem_nil⟩ <;>
    exact ⟨_, _, rfl, String.toList_ofList, by decide⟩

theorem isSome_expansion_fixed : ∀ name ∈ fixedNames, (expansion? fixedDefinitions 3 name).isSome := by
  have hsign : ∀ name ∈ ["sign"], (expansion? fixedDefinitions 1 name).isSome :=
    List.forall_mem_singleton.2 (refersTo_sign.isSome fun _ h => absurd h List.not_mem_nil)
  have hshared : ∀ name ∈ sharedNames, (expansion? fixedDefinitions 2 name).isSome :=
    fun name hname => (refersTo_shared name hname).isSome hsign
  exact fun name hname => (refersTo_fixed name hname).isSome hshared

/-! ### Definitions under a delimiter -/

/-- The pattern text for the user's delimiter. -/
def delimiterSource (delimiter : Option String) : List Char :=
  match delimiter with
  | some text => if text = "" then matchesNothing else escapeText text.toList
  | none => matchesNothing

theorem lookup_segmentDefinitions {name : String} (hname : name ∈ fixedNames) (delimiter : Option String) :
    (segmentDefinitions delimiter).lookup name = fixedDefinitions.lookup name := by
  have hne : name ≠ delimiterName ∧ name ≠ "boundary" ∧ name ≠ "expr_boundary" := by
    revert name
    decide
  have hnone : (boundaryDefinitions (delimiterSource delimiter)).lookup name = none := by
    rw [boundaryDefinitions, List.lookup_cons, List.lookup_cons, List.lookup_cons, beq_false_of_ne hne.1,
      beq_false_of_ne hne.2.1, beq_false_of_ne hne.2.2]
    rfl
  show (sharedDefinitions ++ keyDefinitions ++ boundaryDefinitions (delimiterSource delimiter) ++ markDefinitions ++
    bodyDefinitions ++ valueDefinitions).lookup name = _
  rw [fixedDefinitions]
  simp only [List.lookup_append, hnone, Option.or_none]

theorem mem_fixedNames_of_lookup {name source : String} (h : fixedDefinitions.lookup name = some source) :
    name ∈ fixedNames := by
  show name ∈ fixedDefinitions.map (·.1)
  exact mem_names_of_lookup h

/-- No delimiter changes the expansion of a fixed name. -/
theorem expansion?_fixed (delimiter : Option String) {levels : Nat} {name : String} {text : List Char}
    (h : expansion? fixedDefinitions levels name = some text) :
    expansion? (segmentDefinitions delimiter) levels name = some text :=
  expansion?_extend (fun _ _ hlookup =>
    (lookup_segmentDefinitions (mem_fixedNames_of_lookup hlookup) delimiter).trans hlookup) h

/-! ### The patterns under a delimiter -/

/-- The names of all segments. -/
def segmentNames : List String :=
  fixedNames ++ [delimiterName, "boundary", "expr_boundary"]

theorem expansion?_delimiter (delimiter : Option String) :
    expansion? (segmentDefinitions delimiter) 1 delimiterName = some (delimiterSource delimiter) := by
  have hlookup : (segmentDefinitions delimiter).lookup delimiterName =
      some (String.ofList (delimiterSource delimiter)) := rfl
  have hpieces : piecesBehind 0 (delimiterSource delimiter) = (delimiterSource delimiter).map .char := by
    unfold delimiterSource
    split
    · split
      · decide
      · exact piecesBehind_escapeText _
    · decide
  show ((segmentDefinitions delimiter).lookup delimiterName).bind
    (fun source => expandPieces _ (piecesBehind 0 source.toList)) = _
  rw [hlookup]
  show expandPieces _ (piecesBehind 0 (String.ofList (delimiterSource delimiter)).toList) = _
  rw [String.toList_ofList, hpieces, expandPieces_map_char]

/-- The expansion of the keys of modifiers. -/
def keySource : String :=
  "(?:steps?:) | (?:format: | ~) | (?:freq(?:uency)?: | \\*) | (?:start(?:again|over): | ##)
     | (?:rep(?:eat|etition)?: | #) | (?:expr(?:ession)?: | ::) | (?:stop(?:expr(?:ession)?|if)?: | @) | (?:opt(?:ion(?:s)?)?: | \\?)"

set_option maxRecDepth 4000 in
theorem expansion?_keys : expansion? fixedDefinitions 2 "modifier_start" = some keySource.toList :=
  expansion?_of_source rfl String.toList_ofList String.toList_ofList (by decide)

theorem expansion?_expressionBoundary (delimiter : Option String) :
    expansion? (segmentDefinitions delimiter) 2 "expr_boundary" =
      some ("\\s | ".toList ++ grouped (delimiterSource delimiter)) := by
  have hpieces : piecesBehind 0 "\\s | {{custom_delimiter}}".toList =
      [.char '\\', .char 's', .char ' ', .char '|', .char ' ', .reference delimiterName] := by
    decide
  show expandPieces _ (piecesBehind 0 "\\s | {{custom_delimiter}}".toList) = _
  rw [hpieces]
  simp [expandPieces, expansion?_delimiter]

theorem expansion?_boundary (delimiter : Option String) :
    expansion? (segmentDefinitions delimiter) 3 "boundary" =
      some ("\\s | ".toList ++ grouped (delimiterSource delimiter) ++ " | ".toList ++ grouped keySource.toList) := by
  have hpieces : piecesBehind 0 "\\s | {{custom_delimiter}} | {{modifier_start}}".toList =
      [.char '\\', .char 's', .char ' ', .char '|', .char ' ', .reference delimiterName, .char ' ', .char '|',
        .char ' ', .reference "modifier_start"] := by
    decide
  show expandPieces _ (piecesBehind 0 "\\s | {{custom_delimiter}} | {{modifier_start}}".toList) = _
  rw [hpieces]
  simp [expandPieces, expansion?_succ (expansion?_delimiter delimiter), expansion?_fixed delimiter expansion?_keys]

/-- Every segment has an expansion. -/
theorem isSome_expansion? (delimiter : Option String) :
    ∀ name ∈ segmentNames, (expansion? (segmentDefinitions delimiter) 3 name).isSome := by
  intro name hname
  rcases List.mem_append.1 hname with hfixed | hboundary
  · obtain ⟨text, htext⟩ := Option.isSome_iff_exists.1 (isSome_expansion_fixed name hfixed)
    exact Option.isSome_iff_exists.2 ⟨text, expansion?_fixed delimiter htext⟩
  · simp only [List.mem_cons, List.not_mem_nil, or_false] at hboundary
    rcases hboundary with rfl | rfl | rfl
    · exact Option.isSome_iff_exists.2 ⟨_, expansion?_mono (by decide) (expansion?_delimiter delimiter)⟩
    · exact Option.isSome_iff_exists.2 ⟨_, expansion?_boundary delimiter⟩
    · exact Option.isSome_iff_exists.2 ⟨_, expansion?_succ (expansion?_expressionBoundary delimiter)⟩

/-- The pattern of a segment is read from its expansion, without blanks. -/
theorem pattern_eq {delimiter : Option String} {levels : Nat} {name : String} {text : List Char}
    (hname : name ∈ segmentNames) (h : expansion? (segmentDefinitions delimiter) levels name = some text) :
    (Segments.ofDelimiter delimiter).pattern name = (readPattern? (withoutBlanks text)).getD .nothing := by
  let texts (name : String) : List Char := (expansion? (segmentDefinitions delimiter) 3 name).getD []
  have hmem (name : String) : name ∈ (segmentDefinitions delimiter).map (·.1) ↔ name ∈ segmentNames := by
    -- The delimiter changes what one of the names stands for, but not the names.
    have hperm : List.Perm ((segmentDefinitions none).map (·.1)) segmentNames := by decide
    exact hperm.mem_iff
  -- Three levels are enough for each name, so the resolution, which has more of them, finds the same texts.
  have htexts : ∀ name ∈ (segmentDefinitions delimiter).map (·.1),
      expansion? (segmentDefinitions delimiter) ((segmentDefinitions delimiter).length + 1) name =
        some (texts name) := by
    intro name hname
    obtain ⟨own, hown⟩ := Option.isSome_iff_exists.1 (isSome_expansion? delimiter name ((hmem name).1 hname))
    rw [show texts name = own from congrArg (Option.getD · []) hown]
    exact expansion?_mono (by show 3 ≤ 31; decide) hown
  obtain ⟨own, hown⟩ := Option.isSome_iff_exists.1 (isSome_expansion? delimiter name hname)
  have htext : texts name = text := by
    rw [show texts name = own from congrArg (Option.getD · []) hown]
    exact expansion?_unique hown h
  have hfind : ((segmentDefinitions delimiter).map (·.1)).find? (fun other => decide (other = name)) = some name := by
    cases hother : ((segmentDefinitions delimiter).map (·.1)).find? (fun other => decide (other = name)) with
    | none => exact absurd (decide_eq_true rfl) (List.find?_eq_none.1 hother name ((hmem name).2 hname))
    | some other =>
      have hequal := List.find?_some hother
      rw [of_decide_eq_true hequal]
  have hsegment : (Segments.ofDelimiter delimiter).segment? name =
      some { name, text := withoutBlanks text, pattern := (readPattern? (withoutBlanks text)).getD .nothing } := by
    rw [Segments.segment?, Segments.ofDelimiter, resolveDefinitions_eq htexts, List.map_map, List.find?_map]
    refine (congrArg (Option.map _) hfind).trans ?_
    rw [Option.map_some, Function.comp, htext]
  rw [Segments.pattern, hsegment]
  rfl

/-- The pattern of a definition without references is read from its own text. -/
theorem pattern_of_plain {name source : String} {text : List Char} (delimiter : Option String)
    (hname : name ∈ fixedNames) (hlookup : fixedDefinitions.lookup name = some source) (htext : source.toList = text)
    (hpieces : piecesBehind 0 text = text.map .char) :
    (Segments.ofDelimiter delimiter).pattern name = (readPattern? (withoutBlanks text)).getD .nothing := by
  have hexpand : expandPieces (expansion? fixedDefinitions 0) (piecesBehind 0 text) = some text := by
    rw [hpieces, expandPieces_map_char]
  have hexpansion : expansion? fixedDefinitions 1 name = some text := by
    rw [expansion?_of_source hlookup htext htext hexpand, htext]
  exact pattern_eq (List.mem_append_left _ hname) (expansion?_fixed delimiter hexpansion)

/-- Segments that no delimiter changes. -/
theorem pattern_fixed {name : String} (hname : name ∈ fixedNames) (delimiter delimiter' : Option String) :
    (Segments.ofDelimiter delimiter).pattern name = (Segments.ofDelimiter delimiter').pattern name := by
  obtain ⟨text, htext⟩ := Option.isSome_iff_exists.1 (isSome_expansion_fixed name hname)
  have hmem : name ∈ segmentNames := List.mem_append_left _ hname
  rw [pattern_eq hmem (expansion?_fixed delimiter htext), pattern_eq hmem (expansion?_fixed delimiter' htext)]

theorem find?_fixed {name : String} (hname : name ∈ fixedNames) (delimiter delimiter' : Option String)
    (text : List Char) :
    (Segments.ofDelimiter delimiter).find? name text = (Segments.ofDelimiter delimiter').find? name text := by
  rw [Segments.find?, Segments.find?, pattern_fixed hname delimiter delimiter']

/-! ### The boundaries -/

/-- The word that the user's delimiter stands for: its blanks do not count. -/
def delimiterWord? (delimiter : Option String) : Option (List Char) :=
  match delimiter with
  | some text => if text = "" then none else some (withoutBlanks text.toList)
  | none => none

/-- The pattern of the user's delimiter. -/
def delimiterPattern (delimiter : Option String) : Pattern :=
  match delimiterWord? delimiter with
  | some word => sequenceOf (textItems word)
  | none => .nothing

theorem readPattern?_delimiter (delimiter : Option String) :
    readPattern? (withoutBlanks (delimiterSource delimiter)) = some (delimiterPattern delimiter) := by
  unfold delimiterSource delimiterPattern delimiterWord?
  split
  · split
    · rfl
    · rw [withoutBlanks_escapeText, readPattern?, ReadingState.foldl_read_escapeText, List.append_nil]
      rfl
  · rfl

/-- The pattern of the keys of modifiers. -/
def keyPattern : Pattern :=
  (readPattern? (withoutBlanks keySource.toList)).getD .nothing

set_option maxRecDepth 4000 in
theorem readPattern?_keys : readPattern? (withoutBlanks keySource.toList) = some keyPattern := by
  have hsome : (readPattern? (withoutBlanks keySource.toList)).isSome := by
    have hchars : keySource.toList = _ := String.toList_ofList
    rw [hchars]
    decide
  obtain ⟨pattern, hpattern⟩ := Option.isSome_iff_exists.1 hsome
  rw [keyPattern, hpattern]
  rfl

theorem withoutBlanks_append (front back : List Char) :
    withoutBlanks (front ++ back) = withoutBlanks front ++ withoutBlanks back :=
  List.filter_append ..

theorem withoutBlanks_grouped (text : List Char) : withoutBlanks (grouped text) = grouped (withoutBlanks text) := by
  rw [grouped, withoutBlanks_append, withoutBlanks_append]
  rfl

/-- The state behind the first alternative of a boundary. -/
theorem foldl_read_blank :
    (withoutBlanks "\\s | ".toList).foldl ReadingState.read {} =
      { mode := .plain, inner := { done := [.one .blank] } } := by
  decide

/-- The boundary of the body of an expression: a blank or the delimiter. -/
theorem pattern_expressionBoundary (delimiter : Option String) :
    (Segments.ofDelimiter delimiter).pattern "expr_boundary" =
      .choice (.one .blank) (delimiterPattern delimiter) := by
  rw [pattern_eq (by decide) (expansion?_expressionBoundary delimiter), withoutBlanks_append, withoutBlanks_grouped,
    readPattern?, List.foldl_append, foldl_read_blank,
    ReadingState.foldl_read_grouped [] (readPattern?_delimiter delimiter)]
  rfl

theorem result?_alternatives (first second third : Pattern) :
    (ReadingState.result? { mode := .plain, inner := { done := [second, first], items := [third] } }).getD .nothing =
      .choice first (.choice second third) :=
  rfl

/-- The boundary of all other tokens: a blank, the delimiter, or the start of a key. -/
theorem pattern_boundary (delimiter : Option String) :
    (Segments.ofDelimiter delimiter).pattern "boundary" =
      .choice (.one .blank) (.choice (delimiterPattern delimiter) keyPattern) := by
  have hbar (inner : Branches) : (withoutBlanks " | ".toList).foldl ReadingState.read { mode := .plain, inner } =
      { mode := .plain, inner := { done := sequenceOf inner.items :: inner.done } } := by
    have hchars : withoutBlanks " | ".toList = ['|'] := by decide
    rw [hchars]
    rfl
  rw [pattern_eq (by decide) (expansion?_boundary delimiter), withoutBlanks_append, withoutBlanks_append,
    withoutBlanks_append, withoutBlanks_grouped, withoutBlanks_grouped, readPattern?, List.foldl_append,
    List.foldl_append, List.foldl_append, foldl_read_blank,
    ReadingState.foldl_read_grouped [] (readPattern?_delimiter delimiter), hbar,
    ReadingState.foldl_read_grouped [] readPattern?_keys]
  exact result?_alternatives (.one .blank) (delimiterPattern delimiter) keyPattern

end SequenceNotation.Notation
