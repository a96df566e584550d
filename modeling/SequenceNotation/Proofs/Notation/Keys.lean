import Mathlib.Data.List.Infix
import SequenceNotation.Proofs.Notation.SegmentPatterns

/-!
# Keys of modifiers

The keys of modifiers and their spellings.  The segment for keys finds the first place where a spelling stands, and
the key it belongs to.  Spellings consist of small letters and marks, so a text without marks that a blank follows
holds none.
-/

namespace SequenceNotation.Notation

open SequenceNotation.Text SequenceNotation.Pattern

/-! ### Spellings -/

/-- The spellings of a key, in the order in which the segment for keys tries them. -/
def ModifierKey.spellings : ModifierKey → List String
  | step => ["steps:", "step:"]
  | format => ["format:", "~"]
  | frequency => ["frequency:", "freq:", "*"]
  | startover => ["startagain:", "startover:", "##"]
  | repetition => ["repeat:", "repetition:", "rep:", "#"]
  | expression => ["expression:", "expr:", "::"]
  | stop => ["stopexpression:", "stopexpr:", "stopif:", "stop:", "@"]
  | options => ["options:", "option:", "opt:", "?"]

/-- All spellings with their keys. -/
def spelledKeys : List (ModifierKey × List Char) :=
  ModifierKey.all.flatMap fun key => key.spellings.map fun spelling => (key, spelling.toList)

/-- The characters that no letter of a key is. -/
def keyMarks : List Char :=
  [':', '~', '*', '#', '@', '?']

/-- A key starts at the beginning of a text. -/
def StartsKey (text : List Char) : Prop :=
  ∃ spelled ∈ spelledKeys, spelled.2 <+: text

instance (text : List Char) : Decidable (StartsKey text) :=
  inferInstanceAs (Decidable (∃ spelled ∈ spelledKeys, spelled.2 <+: text))

theorem mem_spelledKeys {key : ModifierKey} {spelling : List Char} :
    (key, spelling) ∈ spelledKeys ↔ ∃ text ∈ key.spellings, spelling = text.toList := by
  have hall : key ∈ ModifierKey.all := by cases key <;> decide
  simp only [spelledKeys, List.mem_flatMap, List.mem_map, Prod.mk.injEq]
  constructor
  · rintro ⟨_, -, text, htext, rfl, rfl⟩
    exact ⟨text, htext, rfl⟩
  · rintro ⟨text, htext, rfl⟩
    exact ⟨key, hall, text, htext, rfl, rfl⟩

theorem spelling_ne_nil {spelled : ModifierKey × List Char} (h : spelled ∈ spelledKeys) : spelled.2 ≠ [] := by
  have hall : ∀ spelled ∈ spelledKeys, spelled.2 ≠ [] := by decide
  exact hall spelled h

/-- A spelling consists of small letters and marks. -/
theorem mem_spelling {spelled : ModifierKey × List Char} (h : spelled ∈ spelledKeys) {c : Char}
    (hc : c ∈ spelled.2) : c.isLower ∨ c ∈ keyMarks := by
  have hall : ∀ spelled ∈ spelledKeys, spelled.2.all (fun c => c.isLower ∨ c ∈ keyMarks) := by decide
  exact forall_of_all (hall spelled h) c hc

theorem exists_mark {spelled : ModifierKey × List Char} (h : spelled ∈ spelledKeys) :
    ∃ c ∈ spelled.2, c ∈ keyMarks := by
  have hall : ∀ spelled ∈ spelledKeys, spelled.2.any (· ∈ keyMarks) := by decide
  simpa using hall spelled h

/-- Nothing in a spelling is a blank, covered in masks, or opens a literal. -/
theorem plain_of_mem_spelling {spelled : ModifierKey × List Char} (h : spelled ∈ spelledKeys) {c : Char}
    (hc : c ∈ spelled.2) : isBlank c = false ∧ c ≠ filler ∧ closer? c = none := by
  have hall : ∀ spelled ∈ spelledKeys,
      spelled.2.all (fun c => isBlank c = false ∧ c ≠ filler ∧ closer? c = none) := by
    decide
  exact forall_of_all (hall spelled h) c hc

/-- Only `#` is the beginning of another spelling, which is `##`. -/
theorem eq_of_spelling_prefix {spelled spelled' : ModifierKey × List Char} (h : spelled ∈ spelledKeys)
    (h' : spelled' ∈ spelledKeys) (hp : spelled.2 <+: spelled'.2) :
    spelled = spelled' ∨ spelled = (.repetition, ['#']) ∧ spelled' = (.startover, ['#', '#']) := by
  have hall : ∀ spelled ∈ spelledKeys, ∀ spelled' ∈ spelledKeys, spelled.2 <+: spelled'.2 →
      spelled = spelled' ∨ spelled = (.repetition, ['#']) ∧ spelled' = (.startover, ['#', '#']) := by decide
  exact hall spelled h spelled' h' hp

/-! ### The segments for keys -/

set_option maxRecDepth 4000 in
theorem words?_keyPattern : keyPattern.words? = some (spelledKeys.map (·.2)) := by
  have hchars : keySource.toList = _ := String.toList_ofList
  rw [keyPattern, hchars]
  decide

/-- The expansion of the keys of modifiers, each in a part of its own. -/
def namedKeySource : String :=
  "(?P<step> (?:steps?:) )
     | (?P<format> (?:format: | ~) )
     | (?P<frequency> (?:freq(?:uency)?: | \\*) )
     | (?P<startover> (?:start(?:again|over): | ##) )
     | (?P<repetition> (?:rep(?:eat|etition)?: | #) )
     | (?P<expression> (?:expr(?:ession)?: | ::) )
     | (?P<stop> (?:stop(?:expr(?:ession)?|if)?: | @) )
     | (?P<options> (?:opt(?:ion(?:s)?)?: | \\?) )"

set_option maxRecDepth 4000 in
theorem expansion?_modifier : expansion? fixedDefinitions 2 "modifier" = some namedKeySource.toList :=
  expansion?_of_source rfl String.toList_ofList String.toList_ofList (by decide)

set_option maxRecDepth 8000 in
theorem namedWords?_modifier (delimiter : Option String) :
    ((Segments.ofDelimiter delimiter).pattern "modifier").namedWords? =
      some (spelledKeys.map fun (key, spelling) => (key.partName, spelling)) := by
  have hchars : namedKeySource.toList = _ := String.toList_ofList
  rw [pattern_eq (by decide) (expansion?_fixed delimiter expansion?_modifier), hchars]
  decide

theorem foundAt?_modifier (delimiter : Option String) (place : Nat) (text : List Char) :
    ((Segments.ofDelimiter delimiter).pattern "modifier").foundAt? place text =
      (spelledKeys.find? (·.2 <+: text)).map fun (key, spelling) =>
        wordFound text spelling [(key.partName, spelling)] := by
  rw [foundAt?_of_namedWords (namedWords?_modifier delimiter), List.find?_map, Option.map_map]
  rfl

theorem foundAt?_modifier_eq_none {delimiter : Option String} {place : Nat} {text : List Char}
    (h : ¬ StartsKey text) : ((Segments.ofDelimiter delimiter).pattern "modifier").foundAt? place text = none := by
  rw [foundAt?_modifier, Option.map_eq_none_iff, List.find?_eq_none]
  intro spelled hmem hprefix
  exact h ⟨spelled, hmem, of_decide_eq_true hprefix⟩

theorem ofMatch?_of_captures {key : ModifierKey} {spelling : List Char} {found : Found}
    (h : found.captures = [(key.partName, spelling)]) : ModifierKey.ofMatch? found = some key := by
  obtain ⟨before, matched, after, captures⟩ := found
  cases h
  cases key <;> rfl

/-! ### Where keys start -/

theorem prefix_of_not_mem {front back word : List Char} (h : word <+: front ++ back)
    (hback : ∀ c ∈ back.head?, c ∉ word) : word <+: front := by
  induction front generalizing word with
  | nil =>
    cases word with
    | nil => exact List.nil_prefix
    | cons c word =>
      obtain ⟨tail, htail⟩ := h
      exact absurd List.mem_cons_self (hback c (by rw [List.nil_append] at htail; rw [← htail]; rfl))
  | cons d front ih =>
    cases word with
    | nil => exact List.nil_prefix
    | cons c word =>
      obtain ⟨rfl, hrest⟩ := List.cons_prefix_cons.1 h
      have hback' : ∀ c ∈ back.head?, c ∉ word := fun c hc hmem => hback c hc (List.mem_cons_of_mem _ hmem)
      exact List.cons_prefix_cons.2 ⟨rfl, ih hrest hback'⟩

/-- Behind a text without marks, what no spelling holds hides where it ends from every key. -/
theorem not_startsKey_append {front back : List Char} (hfront : ∀ c ∈ front, c ∉ keyMarks)
    (hback : ∀ c ∈ back.head?, ∀ spelled ∈ spelledKeys, c ∉ spelled.2) : ¬ StartsKey (front ++ back) := by
  rintro ⟨spelled, hmem, hprefix⟩
  obtain ⟨mark, hmark, hkey⟩ := exists_mark hmem
  have hshort := prefix_of_not_mem hprefix fun c hc => hback c hc spelled hmem
  exact hfront mark (hshort.subset hmark) hkey

/-- No key starts with a character that no spelling holds. -/
theorem not_startsKey_cons {c : Char} {rest : List Char} (h : ∀ spelled ∈ spelledKeys, c ∉ spelled.2) :
    ¬ StartsKey (c :: rest) := by
  have hback : ∀ d ∈ (c :: rest).head?, ∀ spelled ∈ spelledKeys, d ∉ spelled.2 := by
    intro d hd
    obtain rfl := Option.some.inj hd
    exact h
  show ¬ StartsKey ([] ++ c :: rest)
  exact not_startsKey_append (fun _ hc => absurd hc List.not_mem_nil) hback

theorem not_startsKey_nil : ¬ StartsKey [] := by
  decide

theorem not_mem_spelling_of_isBlank {c : Char} (hc : isBlank c) :
    ∀ spelled ∈ spelledKeys, c ∉ spelled.2 := by
  intro spelled hmem hchar
  exact absurd hc (Bool.eq_false_iff.1 (plain_of_mem_spelling hmem hchar).1)

/-- The spelling that a text begins with is the one that is found, unless a second `#` follows. -/
theorem find?_spelledKeys {key : ModifierKey} {spelling rest : List Char} (hmem : (key, spelling) ∈ spelledKeys)
    (hrest : spelling = ['#'] → rest.head? ≠ some '#') :
    spelledKeys.find? (·.2 <+: spelling ++ rest) = some (key, spelling) := by
  have hsome : (spelledKeys.find? (·.2 <+: spelling ++ rest)).isSome :=
    List.find?_isSome.2 ⟨(key, spelling), hmem, decide_eq_true (List.prefix_append spelling rest)⟩
  obtain ⟨found, hfound⟩ := Option.isSome_iff_exists.1 hsome
  rw [hfound]
  have hin := List.mem_of_find?_eq_some hfound
  have hprefix : found.2 <+: spelling ++ rest := by simpa using List.find?_some hfound
  rcases List.prefix_or_prefix_of_prefix hprefix (List.prefix_append spelling rest) with hshort | hlong
  · rcases eq_of_spelling_prefix hin hmem hshort with heq | ⟨rfl, heq⟩
    · rw [heq]
    · -- `##` stands in front of `#` among the spellings
      obtain ⟨rfl, rfl⟩ := Prod.mk.inj heq
      have hfirst : spelledKeys.find? (·.2 <+: ['#', '#'] ++ rest) = some (.startover, ['#', '#']) := by
        simp [spelledKeys, ModifierKey.all, ModifierKey.spellings]
      exact absurd (hfound.symm.trans hfirst) (by simp)
  · rcases eq_of_spelling_prefix hmem hin hlong with heq | ⟨heq, rfl⟩
    · rw [heq]
    · -- the longer one would need a second `#` in the text
      obtain ⟨rfl, rfl⟩ := Prod.mk.inj heq
      obtain ⟨tail, htail⟩ := hprefix
      cases rest with
      | nil => cases htail
      | cons c rest =>
        obtain rfl := (List.cons.inj (List.cons.inj htail).2).1
        exact absurd rfl (hrest rfl)

end SequenceNotation.Notation
