import Mathlib.Tactic.ByContra
import SequenceNotation.Pattern.Basic

/-!
# Patterns that spell words

A pattern of literal characters, alternatives and optional parts spells finitely many words, in an order of
preference.  At a place it matches the first of them that stands there and lets the rest succeed.
-/

namespace SequenceNotation.Pattern

variable {α : Type}

/-! ### Matching words -/

/-- The words of a pattern, the preferred ones first, if it has no classes, no places and no named parts, and every
repetition is of an optional part. -/
def words? : Pattern → Option (List (List Char))
  | .empty => some [[]]
  | .one (.literal c) => some [[c]]
  | .sequence first second =>
    first.words?.bind fun words => second.words?.map fun words' => words.flatMap fun word => words'.map (word ++ ·)
  | .choice first second => first.words?.bind fun words => second.words?.map (words ++ ·)
  | .repeated inner 0 (some 1) => inner.words?.map (· ++ [[]])
  | _ => none

/-- The first of some words at the start of a text with which what follows succeeds. -/
def matchWords (words : List (List Char)) (place : Nat) (text : List Char) (captures : Captures)
    (next : Continuation α) : Option α :=
  words.findSome? fun word =>
    if word <+: text then next (place + word.length) (text.drop word.length) captures else none

theorem firstOf_eq_or (first second : Option α) : firstOf first (fun _ => second) = first.or second := by
  cases first <;> rfl

theorem matchWords_append (words words' : List (List Char)) (place : Nat) (text : List Char) (captures : Captures)
    (next : Continuation α) :
    matchWords (words ++ words') place text captures next =
      (matchWords words place text captures next).or (matchWords words' place text captures next) :=
  List.findSome?_append

/-- Words behind a word. -/
theorem matchWords_map_append (word : List Char) (words : List (List Char)) (place : Nat) (text : List Char)
    (captures : Captures) (next : Continuation α) :
    matchWords (words.map (word ++ ·)) place text captures next =
      if word <+: text then matchWords words (place + word.length) (text.drop word.length) captures next else none := by
  rw [matchWords, List.findSome?_map]
  split
  · rename_i hprefix
    obtain ⟨rest, rfl⟩ := hprefix
    simp [matchWords, Function.comp_def, List.prefix_append_right_inj, List.drop_length_add_append, Nat.add_assoc]
  · rename_i hprefix
    rw [List.findSome?_eq_none_iff]
    intro word' _
    exact if_neg fun h => hprefix ((List.prefix_append word word').trans h)

theorem matchWords_flatMap (words words' : List (List Char)) (place : Nat) (text : List Char) (captures : Captures)
    (next : Continuation α) :
    matchWords (words.flatMap fun word => words'.map (word ++ ·)) place text captures next =
      matchWords words place text captures fun place text captures => matchWords words' place text captures next := by
  induction words with
  | nil => rfl
  | cons word rest ih =>
    rw [List.flatMap_cons, matchWords_append, ih, matchWords_map_append]
    show _ = matchWords ([word] ++ rest) place text captures _
    rw [matchWords_append]
    simp [matchWords]

/-- An optional part is tried first and may be left out. -/
theorem matchAt_optional (inner : Pattern) (place : Nat) (text : List Char) (captures : Captures)
    (next : Continuation α) :
    (Pattern.repeated inner 0 (some 1)).matchAt place text captures next =
      (inner.matchAt place text captures next).or (next place text captures) := by
  have hagain : (fun (place' : Nat) (text' : List Char) (captures' : Captures) =>
      if text'.length < text.length then
        repeatedly inner.matchAt text.length (0 - 1) (some (1 - 1)) place' text' captures' next
      else next place' text' captures') = next := by
    funext place' text' captures'
    split
    · rename_i hlt
      obtain ⟨rounds, hrounds⟩ := Nat.exists_eq_add_of_lt hlt
      rw [hrounds]
      rfl
    · rfl
  show firstOf (inner.matchAt place text captures fun place' text' captures' =>
      if text'.length < text.length then
        repeatedly inner.matchAt text.length (0 - 1) (some (1 - 1)) place' text' captures' next
      else next place' text' captures') (fun _ => next place text captures) = _
  rw [hagain, firstOf_eq_or]

/-- A pattern that spells words matches as these words do. -/
theorem matchAt_eq_matchWords {pattern : Pattern} {words : List (List Char)} (h : pattern.words? = some words)
    (place : Nat) (text : List Char) (captures : Captures) (next : Continuation α) :
    pattern.matchAt place text captures next = matchWords words place text captures next := by
  fun_induction words? pattern generalizing words place text captures next with
  | case1 =>
    cases h
    simp [matchAt, matchWords]
  | case2 c =>
    cases h
    cases text with
    | nil => simp [matchAt, matchWords]
    | cons d rest =>
      by_cases hd : d = c
      · simp [matchAt, matchWords, CharClass.holds, hd]
      · simp [matchAt, matchWords, CharClass.holds, hd, Ne.symm hd]
  | case3 first second ih ih' =>
    obtain ⟨own, hfirst, hrest⟩ := Option.bind_eq_some_iff.1 h
    obtain ⟨behind, hsecond, rfl⟩ := Option.map_eq_some_iff.1 hrest
    rw [matchWords_flatMap, matchAt, ih hfirst]
    refine congrArg _ ?_
    funext place text captures
    exact ih' hsecond place text captures next
  | case4 first second ih ih' =>
    obtain ⟨own, hfirst, hrest⟩ := Option.bind_eq_some_iff.1 h
    obtain ⟨other, hsecond, rfl⟩ := Option.map_eq_some_iff.1 hrest
    rw [matchAt, firstOf_eq_or, ih hfirst, ih' hsecond, matchWords_append]
  | case5 inner ih =>
    obtain ⟨own, hinner, rfl⟩ := Option.map_eq_some_iff.1 h
    rw [matchAt_optional, ih hinner, matchWords_append]
    simp [matchWords]
  | case6 => cases h

/-! ### Optional parts and runs -/

/-- An optional part with which what follows succeeds is not left out. -/
theorem matchAt_optional_some {inner : Pattern} {place : Nat} {text : List Char} {captures : Captures}
    {next : Continuation α} {a : α} (h : inner.matchAt place text captures next = some a) :
    (Pattern.repeated inner 0 (some 1)).matchAt place text captures next = some a := by
  rw [matchAt_optional, h]
  rfl

/-- An optional part that does not match is left out. -/
theorem matchAt_optional_none {inner : Pattern} {place : Nat} {text : List Char} {captures : Captures}
    {next : Continuation α} (h : inner.matchAt place text captures next = none) :
    (Pattern.repeated inner 0 (some 1)).matchAt place text captures next = next place text captures := by
  rw [matchAt_optional, h]
  rfl

/-- A class does not match where the text ends or another character stands. -/
theorem matchAt_one_none {charClass : CharClass} {text : List Char} (h : text.head?.any charClass.holds = false)
    (place : Nat) (captures : Captures) (next : Continuation α) :
    (Pattern.one charClass).matchAt place text captures next = none := by
  cases text with
  | nil => rfl
  | cons c rest =>
    have hc : charClass.holds c = false := h
    rw [matchAt, hc]
    rfl

/-- A repeated class takes a whole run if what follows succeeds behind it. -/
theorem repeatedly_run {charClass : CharClass} {run rest : List Char} (hall : ∀ c ∈ run, charClass.holds c)
    (hstop : rest.head?.any charClass.holds = false) {rounds least place : Nat} (hleast : least ≤ run.length)
    (hrounds : run.length < rounds) {captures : Captures} {next : Continuation α} {a : α}
    (hnext : next (place + run.length) rest captures = some a) :
    repeatedly (Pattern.one charClass).matchAt rounds least none place (run ++ rest) captures next = some a := by
  induction run generalizing rounds least place with
  | nil =>
    obtain ⟨rounds, rfl⟩ := Nat.exists_eq_add_of_lt hrounds
    obtain rfl := Nat.le_zero.1 hleast
    show firstOf ((Pattern.one charClass).matchAt place rest captures _) (fun _ => next place rest captures) = some a
    rw [matchAt_one_none hstop]
    exact hnext
  | cons c run ih =>
    obtain ⟨hc, hrun⟩ := List.forall_mem_cons.1 hall
    cases rounds with
    | zero => exact absurd hrounds (Nat.not_lt_zero _)
    | succ rounds =>
      have hplace : place + 1 + run.length = place + (c :: run).length := by
        rw [List.length_cons]
        omega
      have hrest := ih hrun (Nat.sub_le_of_le_add hleast) (Nat.lt_of_succ_lt_succ hrounds) (hplace ▸ hnext)
      -- The round takes a character, so it is no idle one, and the first of the two ways succeeds.
      have hshorter : (run ++ rest).length < (c :: (run ++ rest)).length := Nat.lt_succ_self _
      have hagain : (Pattern.one charClass).matchAt place (c :: (run ++ rest)) captures
          (fun place' text' captures' =>
            if text'.length < (c :: (run ++ rest)).length then
              repeatedly (Pattern.one charClass).matchAt rounds (least - 1) none place' text' captures' next
            else next place' text' captures') = some a := by
        rw [matchAt, if_pos hc, if_pos hshorter, hrest]
      rw [List.cons_append, repeatedly, if_neg (fun h => by cases h)]
      exact congrArg (fun result => firstOf result _) hagain

theorem matchAt_run {charClass : CharClass} {run rest : List Char} (hrun : run ≠ [])
    (hall : ∀ c ∈ run, charClass.holds c) (hstop : rest.head?.any charClass.holds = false) {place : Nat}
    {captures : Captures} {next : Continuation α} {a : α}
    (hnext : next (place + run.length) rest captures = some a) :
    (Pattern.repeated (.one charClass) 1 none).matchAt place (run ++ rest) captures next = some a := by
  have hpos : 0 < run.length := List.length_pos_iff.2 hrun
  refine repeatedly_run hall hstop hpos ?_ hnext
  rw [List.length_append]
  omega

/-- A run of at least one character does not match where the text ends or another character stands. -/
theorem matchAt_run_none {charClass : CharClass} {text : List Char} (h : text.head?.any charClass.holds = false)
    (place : Nat) (captures : Captures) (next : Continuation α) :
    (Pattern.repeated (.one charClass) 1 none).matchAt place text captures next = none := by
  show firstOf ((Pattern.one charClass).matchAt place text captures _) (fun _ => none) = none
  rw [matchAt_one_none h]
  rfl

/-- A repeated class prefers to take one more character. -/
theorem matchAt_star_cons {charClass : CharClass} {c : Char} (hc : charClass.holds c) (place : Nat) (rest : List Char)
    (captures : Captures) (next : Continuation α) :
    (Pattern.repeated (.one charClass) 0 none).matchAt place (c :: rest) captures next =
      ((Pattern.repeated (.one charClass) 0 none).matchAt (place + 1) rest captures next).or
        (next place (c :: rest) captures) := by
  simp [matchAt, repeatedly, hc, firstOf_eq_or]

/-- A repeated class goes on as it does behind a run, if that succeeds. -/
theorem matchAt_star_append {charClass : CharClass} {run : List Char} (hrun : ∀ c ∈ run, charClass.holds c)
    {place : Nat} {rest : List Char} {captures : Captures} {next : Continuation α} {a : α}
    (h : (Pattern.repeated (.one charClass) 0 none).matchAt (place + run.length) rest captures next = some a) :
    (Pattern.repeated (.one charClass) 0 none).matchAt place (run ++ rest) captures next = some a := by
  induction run generalizing place with
  | nil => exact h
  | cons c run ih =>
    obtain ⟨hc, hrest⟩ := List.forall_mem_cons.1 hrun
    rw [List.length_cons, Nat.add_comm run.length, ← Nat.add_assoc] at h
    rw [List.cons_append, matchAt_star_cons hc, ih hrest h]
    rfl

/-! ### Matches at a place -/

/-- A match of a word that a text begins with. -/
def wordFound (text word : List Char) (captures : Captures) : Found :=
  { before := [], matched := word, after := text.drop word.length, captures }

theorem matchWords_found (words : List (List Char)) (place : Nat) (text : List Char) :
    matchWords words place text [] (fun _ rest captures =>
        some { before := [], matched := text.take (text.length - rest.length), after := rest, captures }) =
      (words.find? (· <+: text)).map fun word => wordFound text word [] := by
  induction words with
  | nil => rfl
  | cons word rest ih =>
    show matchWords ([word] ++ rest) place text [] _ = _
    rw [matchWords_append, ih, List.find?_cons]
    by_cases hword : word <+: text
    · obtain ⟨behind, rfl⟩ := hword
      simp [matchWords, wordFound]
    · simp [matchWords, hword]

theorem foundAt?_of_words {pattern : Pattern} {words : List (List Char)} (h : pattern.words? = some words)
    (place : Nat) (text : List Char) :
    pattern.foundAt? place text = (words.find? (· <+: text)).map fun word => wordFound text word [] :=
  (matchAt_eq_matchWords h place text [] _).trans (matchWords_found words place text)

/-- The words of alternatives each of which is a named part that spells words, with their names. -/
def namedWords? : Pattern → Option (List (String × List Char))
  | .named name inner => inner.words?.map (·.map (name, ·))
  | .choice first second => first.namedWords?.bind fun words => second.namedWords?.map (words ++ ·)
  | _ => none

theorem foundAt?_named {inner : Pattern} {words : List (List Char)} (h : inner.words? = some words) (name : String)
    (place : Nat) (text : List Char) :
    (Pattern.named name inner).foundAt? place text =
      (words.find? (· <+: text)).map fun word => wordFound text word [(name, word)] := by
  show inner.matchAt place text [] _ = _
  rw [matchAt_eq_matchWords h]
  clear h
  induction words with
  | nil => rfl
  | cons word rest ih =>
    show matchWords ([word] ++ rest) place text [] _ = _
    rw [matchWords_append, ih, List.find?_cons]
    by_cases hword : word <+: text
    · obtain ⟨behind, rfl⟩ := hword
      simp [matchWords, wordFound, Captures.record]
    · simp [matchWords, hword]

theorem foundAt?_choice (first second : Pattern) (place : Nat) (text : List Char) :
    (Pattern.choice first second).foundAt? place text =
      (first.foundAt? place text).or (second.foundAt? place text) :=
  firstOf_eq_or _ _

theorem foundAt?_of_namedWords {pattern : Pattern} {words : List (String × List Char)}
    (h : pattern.namedWords? = some words) (place : Nat) (text : List Char) :
    pattern.foundAt? place text =
      (words.find? (·.2 <+: text)).map fun named => wordFound text named.2 [named] := by
  fun_induction namedWords? pattern generalizing words with
  | case1 name inner =>
    obtain ⟨own, hinner, rfl⟩ := Option.map_eq_some_iff.1 h
    rw [foundAt?_named hinner, List.find?_map, Option.map_map]
    rfl
  | case2 first second ih ih' =>
    obtain ⟨own, hfirst, hrest⟩ := Option.bind_eq_some_iff.1 h
    obtain ⟨other, hsecond, rfl⟩ := Option.map_eq_some_iff.1 hrest
    rw [foundAt?_choice, ih hfirst, ih' hsecond, List.find?_append]
    cases own.find? (·.2 <+: text) <;> rfl
  | case3 => cases h

theorem foundAt?_one (charClass : CharClass) (place : Nat) (c : Char) (rest : List Char) :
    (Pattern.one charClass).foundAt? place (c :: rest) =
      if charClass.holds c then some (wordFound (c :: rest) [c] []) else none := by
  simp [foundAt?, matchAt, wordFound]

/-! ### The first match -/

variable {pattern : Pattern}

theorem findFrom?_of_foundAt? {place : Nat} {text : List Char} {found : Found}
    (h : pattern.foundAt? place text = some found) : pattern.findFrom? place text = some found := by
  cases text with
  | nil => exact h
  | cons c rest => rw [findFrom?, h, firstOf]

theorem findFrom?_cons {place : Nat} {c : Char} {rest : List Char} (h : pattern.foundAt? place (c :: rest) = none) :
    pattern.findFrom? place (c :: rest) =
      (pattern.findFrom? (place + 1) rest).map fun found => { found with before := c :: found.before } := by
  rw [findFrom?, h, firstOf]

/-- A search goes past a front in which no match begins. -/
theorem findFrom?_append {place : Nat} {front back : List Char}
    (h : ∀ tail, tail <:+ front → tail ≠ [] → ∀ place, pattern.foundAt? place (tail ++ back) = none) :
    pattern.findFrom? place (front ++ back) =
      (pattern.findFrom? (place + front.length) back).map fun found =>
        { found with before := front ++ found.before } := by
  induction front generalizing place with
  | nil =>
    show pattern.findFrom? place back = (pattern.findFrom? place back).map id
    rw [Option.map_id, id]
  | cons c rest ih =>
    have hrest := fun tail (htail : tail <:+ rest) => h tail (htail.trans (List.suffix_cons c rest))
    have hown : pattern.foundAt? place (c :: (rest ++ back)) = none :=
      h (c :: rest) (List.suffix_refl _) (List.cons_ne_nil c rest) place
    rw [List.cons_append, findFrom?_cons hown, ih hrest, Option.map_map, List.length_cons, Nat.add_assoc,
      Nat.add_comm 1]
    rfl

/-- What is found first: the front that it goes past, where no match begins, and the match behind it. -/
theorem exists_of_findFrom? {place : Nat} {text : List Char} {found : Found}
    (h : pattern.findFrom? place text = some found) :
    ∃ front back own, text = front ++ back ∧ pattern.foundAt? (place + front.length) back = some own ∧
      found = { own with before := front ++ own.before } ∧
      ∀ front' tail, front = front' ++ tail → tail ≠ [] →
        pattern.foundAt? (place + front'.length) (tail ++ back) = none := by
  induction text generalizing place found with
  | nil => exact ⟨[], [], found, rfl, h, rfl, fun _ _ hnil hne => absurd (List.append_eq_nil_iff.1 hnil.symm).2 hne⟩
  | cons c rest ih =>
    cases hown : pattern.foundAt? place (c :: rest) with
    | some own =>
      cases (findFrom?_of_foundAt? hown).symm.trans h
      exact ⟨[], c :: rest, found, rfl, hown, rfl,
        fun _ _ hnil hne => absurd (List.append_eq_nil_iff.1 hnil.symm).2 hne⟩
    | none =>
      rw [findFrom?_cons hown] at h
      obtain ⟨found', hfound', rfl⟩ := Option.map_eq_some_iff.1 h
      obtain ⟨front, back, own, rfl, hback, rfl, hfront⟩ := ih hfound'
      have hplace (n : Nat) : place + 1 + n = place + (n + 1) := by omega
      refine ⟨c :: front, back, own, rfl, hplace _ ▸ hback, rfl, fun front' tail heq hne => ?_⟩
      -- No match begins at this place, and none at those behind it by induction.
      cases front' with
      | nil =>
        cases heq
        exact hown
      | cons d front' =>
        obtain ⟨rfl, hrest⟩ := List.cons.inj heq
        exact hplace _ ▸ hfront front' tail hrest hne

/-- Where nothing is found, no match begins. -/
theorem foundAt?_eq_none_of_findFrom? {place : Nat} {text : List Char} (h : pattern.findFrom? place text = none)
    {front back : List Char} (htext : text = front ++ back) :
    pattern.foundAt? (place + front.length) back = none := by
  induction front generalizing place text with
  | nil =>
    obtain rfl := htext
    by_contra hback
    obtain ⟨found, hfound⟩ := Option.ne_none_iff_exists'.1 hback
    cases h.symm.trans (findFrom?_of_foundAt? hfound)
  | cons c front ih =>
    obtain rfl := htext
    rw [List.cons_append, findFrom?] at h
    cases hown : pattern.foundAt? place (c :: (front ++ back)) with
    | some own => rw [hown] at h; cases h
    | none =>
      rw [hown, firstOf, Option.map_eq_none_iff] at h
      have hback := ih h rfl
      rwa [Nat.add_assoc, Nat.add_comm 1] at hback

/-! ### Matches at the start -/

theorem foundAt?_start (inner : Pattern) (text : List Char) :
    (Pattern.sequence .start inner).foundAt? 0 text = inner.foundAt? 0 text :=
  rfl

/-- A pattern that is bound to the start of the text matches there or nowhere. -/
theorem find?_start (inner : Pattern) (text : List Char) :
    (Pattern.sequence .start inner).find? text = inner.foundAt? 0 text := by
  have hlater (place : Nat) (rest : List Char) : (Pattern.sequence .start inner).findFrom? (place + 1) rest = none := by
    induction rest generalizing place with
    | nil => rfl
    | cons c rest ih =>
      rw [findFrom?_cons rfl, ih]
      rfl
  cases text with
  | nil => rfl
  | cons c rest =>
    rw [find?, findFrom?, hlater, foundAt?_start, firstOf_eq_or]
    exact Option.or_none

end SequenceNotation.Pattern
