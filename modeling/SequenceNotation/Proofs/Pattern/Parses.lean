import SequenceNotation.Proofs.Pattern.Words

/-!
# What named parts hold

A match follows the pattern: it is a parse, in which the choices made by backtracking are written down.  Each named
part of a match holds a text that one of the parts of this name accepts, and parts of other names keep what they held.
-/

namespace SequenceNotation.Pattern

/-- A way to read the front of a text as a pattern: the text, the named parts so far, what remains of the text, and the
named parts then. -/
inductive Parses : Pattern → List Char → Captures → List Char → Captures → Prop
  | empty {text : List Char} {captures : Captures} : Parses .empty text captures text captures
  | one {charClass : CharClass} {c : Char} {rest : List Char} {captures : Captures} (hc : charClass.holds c) :
      Parses (.one charClass) (c :: rest) captures rest captures
  | start {text : List Char} {captures : Captures} : Parses .start text captures text captures
  | finish {captures : Captures} : Parses .finish [] captures [] captures
  | sequence {first second : Pattern} {text middle rest : List Char} {captures captures' captures'' : Captures}
      (hfirst : Parses first text captures middle captures')
      (hsecond : Parses second middle captures' rest captures'') :
      Parses (.sequence first second) text captures rest captures''
  | first {first second : Pattern} {text rest : List Char} {captures captures' : Captures}
      (h : Parses first text captures rest captures') : Parses (.choice first second) text captures rest captures'
  | second {first second : Pattern} {text rest : List Char} {captures captures' : Captures}
      (h : Parses second text captures rest captures') : Parses (.choice first second) text captures rest captures'
  | named {name : String} {inner : Pattern} {text rest : List Char} {captures captures' : Captures}
      (h : Parses inner text captures rest captures') :
      Parses (.named name inner) text captures rest
        (captures'.record name (text.take (text.length - rest.length)))
  | stop {inner : Pattern} {most : Option Nat} {text : List Char} {captures : Captures} :
      Parses (.repeated inner 0 most) text captures text captures
  | again {inner : Pattern} {least : Nat} {most : Option Nat} {text middle rest : List Char}
      {captures captures' captures'' : Captures} (hmost : most ≠ some 0)
      (hfirst : Parses inner text captures middle captures') (hshorter : middle.length < text.length)
      (hbehind : Parses (.repeated inner (least - 1) (most.map (· - 1))) middle captures' rest captures'') :
      Parses (.repeated inner least most) text captures rest captures''
  /-- A repetition of nothing is the last. -/
  | idle {inner : Pattern} {least : Nat} {most : Option Nat} {text rest : List Char} {captures captures' : Captures}
      (hmost : most ≠ some 0) (h : Parses inner text captures rest captures') (hidle : ¬ rest.length < text.length) :
      Parses (.repeated inner least most) text captures rest captures'

variable {α : Type}

theorem exists_parses_of_repeatedly {inner : Pattern} {a : α}
    (hinner : ∀ {place text captures} {next : Continuation α}, inner.matchAt place text captures next = some a →
      ∃ place' rest captures', Parses inner text captures rest captures' ∧ next place' rest captures' = some a)
    {rounds least : Nat} {most : Option Nat} {place : Nat} {text : List Char} {captures : Captures}
    {next : Continuation α}
    (h : repeatedly inner.matchAt rounds least most place text captures next = some a) :
    ∃ place' rest captures', Parses (.repeated inner least most) text captures rest captures' ∧
      next place' rest captures' = some a := by
  induction rounds generalizing least most place text captures with
  | zero => cases h
  | succ rounds ih =>
    have hstop (h : (if least = 0 then next place text captures else none) = some a) :
        ∃ place' rest captures', Parses (.repeated inner least most) text captures rest captures' ∧
          next place' rest captures' = some a := by
      split at h
      · rename_i hleast
        exact ⟨place, text, captures, hleast ▸ .stop, h⟩
      · cases h
    rw [repeatedly] at h
    simp only at h
    split at h
    · -- the most rounds have been made
      exact hstop h
    · rename_i hmost
      rw [firstOf_eq_or, Option.or_eq_some_iff] at h
      rcases h with hagain | ⟨-, h⟩
      · -- one round more comes first, which goes on only if it took something
        obtain ⟨place', middle, captures', hfirst, hnext⟩ := hinner hagain
        split at hnext
        · rename_i hshorter
          obtain ⟨place'', rest, captures'', hbehind, hnext'⟩ := ih hnext
          exact ⟨place'', rest, captures'', .again hmost hfirst hshorter hbehind, hnext'⟩
        · rename_i hidle
          exact ⟨place', middle, captures', .idle hmost hfirst hidle, hnext⟩
      · exact hstop h

/-- A match is a parse. -/
theorem exists_parses {pattern : Pattern} {place : Nat} {text : List Char} {captures : Captures}
    {next : Continuation α} {a : α} (h : pattern.matchAt place text captures next = some a) :
    ∃ place' rest captures', Parses pattern text captures rest captures' ∧ next place' rest captures' = some a := by
  induction pattern generalizing place text captures next with
  | empty => exact ⟨place, text, captures, .empty, h⟩
  | one charClass =>
    cases text with
    | nil => cases h
    | cons c rest =>
      rw [matchAt] at h
      split at h
      · rename_i hc
        exact ⟨place + 1, rest, captures, .one hc, h⟩
      · cases h
  | start =>
    rw [matchAt] at h
    split at h
    · exact ⟨place, text, captures, .start, h⟩
    · cases h
  | finish =>
    rw [matchAt] at h
    split at h
    · rename_i hnil
      exact ⟨place, text, captures, hnil ▸ .finish, h⟩
    · cases h
  | sequence first second ih ih' =>
    obtain ⟨place', middle, captures', hfirst, hnext⟩ := ih h
    obtain ⟨place'', rest, captures'', hsecond, hnext'⟩ := ih' hnext
    exact ⟨place'', rest, captures'', .sequence hfirst hsecond, hnext'⟩
  | choice first second ih ih' =>
    rw [matchAt, firstOf_eq_or, Option.or_eq_some_iff] at h
    rcases h with h | ⟨-, h⟩
    · obtain ⟨place', rest, captures', hfirst, hnext⟩ := ih h
      exact ⟨place', rest, captures', .first hfirst, hnext⟩
    · obtain ⟨place', rest, captures', hsecond, hnext⟩ := ih' h
      exact ⟨place', rest, captures', .second hsecond, hnext⟩
  | named name inner ih =>
    obtain ⟨place', rest, captures', hinner, hnext⟩ := ih h
    exact ⟨place', rest, _, .named hinner, hnext⟩
  | repeated inner least most ih => exact exists_parses_of_repeatedly ih h

/-- A match that is bound to both ends of the text is a parse of the whole text. -/
theorem parses_of_find? {inner : Pattern} {text : List Char} {found : Found}
    (h : (Pattern.sequence .start inner).find? text = some found) :
    ∃ rest, Parses inner text [] rest found.captures := by
  rw [find?_start] at h
  obtain ⟨-, rest, captures, hinner, hfound⟩ := exists_parses h
  cases hfound
  exact ⟨rest, hinner⟩

/-! ### What a parse takes -/

/-- What remains is the end of the text. -/
theorem Parses.suffix {pattern : Pattern} {text rest : List Char} {captures captures' : Captures}
    (h : Parses pattern text captures rest captures') : rest <:+ text := by
  induction h with
  | empty | start | finish | stop => exact List.suffix_refl _
  | one => exact List.suffix_cons _ _
  | sequence _ _ ih ih' | again _ _ _ _ ih ih' => exact ih'.trans ih
  | first _ ih | second _ ih | named _ ih | idle _ _ _ ih => exact ih

/-- An optional part is left out or parsed once. -/
theorem Parses.optional {inner : Pattern} {text rest : List Char} {captures captures' : Captures}
    (h : Parses (.repeated inner 0 (some 1)) text captures rest captures') :
    (rest = text ∧ captures' = captures) ∨ Parses inner text captures rest captures' := by
  cases h with
  | stop => exact .inl ⟨rfl, rfl⟩
  | idle _ h _ => exact .inr h
  | again _ h _ hbehind =>
    cases hbehind with
    | stop => exact .inr h
    | again hmost | idle hmost => exact absurd rfl hmost

/-- A repeated class takes a run of its characters. -/
theorem Parses.run {charClass : CharClass} {least : Nat} {most : Option Nat} {text rest : List Char}
    {captures captures' : Captures} (h : Parses (.repeated (.one charClass) least most) text captures rest captures') :
    ∃ run, text = run ++ rest ∧ (∀ c ∈ run, charClass.holds c) ∧ least ≤ run.length ∧ ∀ n ∈ most, run.length ≤ n := by
  generalize hpattern : Pattern.repeated (.one charClass) least most = pattern at h
  induction h generalizing least most with
  | stop =>
    cases hpattern
    exact ⟨[], rfl, by simp, Nat.le_refl 0, fun n _ => Nat.zero_le n⟩
  | again hmost hfirst _ _ _ ih =>
    cases hpattern
    cases hfirst with
    | @one _ c _ _ hc =>
      obtain ⟨run, rfl, hrun, hleast, hbound⟩ := ih rfl
      refine ⟨c :: run, rfl, List.forall_mem_cons.2 ⟨hc, hrun⟩, Nat.le_add_of_sub_le hleast, ?_⟩
      rintro n rfl
      have hpos : n ≠ 0 := fun hzero => hmost (by rw [hzero])
      have hshort := hbound (n - 1) rfl
      rw [List.length_cons]
      omega
  | idle _ h hidle =>
    cases hpattern
    cases h
    exact absurd (Nat.lt_succ_self _) hidle
  | _ => cases hpattern

/-! ### The texts of named parts -/

/-- A pattern accepts a text: it can be read from it. -/
def Accepts (pattern : Pattern) (text : List Char) : Prop :=
  ∃ rest captures captures', Parses pattern (text ++ rest) captures rest captures'

theorem Parses.exists_accepts {pattern : Pattern} {text rest : List Char} {captures captures' : Captures}
    (h : Parses pattern text captures rest captures') : ∃ own, text = own ++ rest ∧ Accepts pattern own := by
  obtain ⟨own, rfl⟩ := h.suffix
  exact ⟨own, rfl, rest, captures, captures', h⟩

namespace Accepts

variable {text : List Char}

theorem sequence {first second : Pattern} (h : Accepts (.sequence first second) text) :
    ∃ front back, text = front ++ back ∧ Accepts first front ∧ Accepts second back := by
  obtain ⟨rest, captures, captures', h⟩ := h
  generalize hwhole : text ++ rest = whole at h
  cases h with
  | sequence hfirst hsecond =>
    obtain ⟨front, rfl, hfront⟩ := hfirst.exists_accepts
    obtain ⟨back, rfl, hback⟩ := hsecond.exists_accepts
    rw [← List.append_assoc] at hwhole
    exact ⟨front, back, List.append_cancel_right hwhole, hfront, hback⟩

theorem named {name : String} {inner : Pattern} (h : Accepts (.named name inner) text) : Accepts inner text := by
  obtain ⟨rest, captures, captures', h⟩ := h
  cases h with
  | named h => exact ⟨rest, captures, _, h⟩

theorem one {charClass : CharClass} (h : Accepts (.one charClass) text) : ∃ c, text = [c] ∧ charClass.holds c := by
  obtain ⟨rest, captures, captures', h⟩ := h
  generalize hwhole : text ++ rest = whole at h
  cases h with
  | @one _ c _ _ hc =>
    have htext : text ++ rest = [c] ++ rest := hwhole
    exact ⟨c, List.append_cancel_right htext, hc⟩

theorem optional {inner : Pattern} (h : Accepts (.repeated inner 0 (some 1)) text) :
    text = [] ∨ Accepts inner text := by
  obtain ⟨rest, captures, captures', h⟩ := h
  rcases h.optional with ⟨hrest, -⟩ | h
  · exact .inl (List.self_eq_append_left.1 hrest)
  · exact .inr ⟨rest, captures, captures', h⟩

theorem run {charClass : CharClass} {least : Nat} {most : Option Nat}
    (h : Accepts (.repeated (.one charClass) least most) text) :
    (∀ c ∈ text, charClass.holds c) ∧ least ≤ text.length ∧ ∀ n ∈ most, text.length ≤ n := by
  obtain ⟨rest, captures, captures', h⟩ := h
  obtain ⟨run, htext, hrun⟩ := h.run
  obtain rfl := List.append_cancel_right htext
  exact hrun

end Accepts

/-- The parts of a name. -/
def parts (name : String) : Pattern → List Pattern
  | .sequence first second => parts name first ++ parts name second
  | .choice first second => parts name first ++ parts name second
  | .named other inner => (if other = name then [inner] else []) ++ parts name inner
  | .repeated inner _ _ => parts name inner
  | _ => []

theorem Captures.lookup_record (captures : Captures) (name : String) (text : List Char) :
    (captures.record name text).lookup name = some text := by
  simp [Captures.record]

theorem Captures.lookup_record_of_ne (captures : Captures) {name other : String} (hne : other ≠ name)
    (text : List Char) : (captures.record name text).lookup other = captures.lookup other := by
  have hown : (other == name) = false := beq_false_of_ne hne
  rw [Captures.record, List.lookup_cons, hown]
  induction captures with
  | nil => rfl
  | cons entry captures ih =>
    obtain ⟨key, value⟩ := entry
    by_cases hkey : key = name
    · subst hkey
      simpa [hown, List.lookup_cons] using ih
    · by_cases hother : other = key
      · simp [hkey, hother]
      · have hkey' : (other == key) = false := beq_false_of_ne hother
        simpa [hkey, hkey', List.lookup_cons] using ih

/-- A parse leaves a named part as it is, or puts a text there that one of the parts of this name accepts. -/
theorem Parses.lookup_cases {pattern : Pattern} {text rest : List Char} {captures captures' : Captures}
    (h : Parses pattern text captures rest captures') (name : String) :
    captures'.lookup name = captures.lookup name ∨
      ∃ own, captures'.lookup name = some own ∧ ∃ inner ∈ pattern.parts name, Accepts inner own := by
  have hboth {pattern pattern' whole : Pattern} {before middle behind : Option (List Char)}
      (hparts : pattern.parts name ⊆ whole.parts name) (hparts' : pattern'.parts name ⊆ whole.parts name)
      (hfirst : middle = before ∨ ∃ own, middle = some own ∧ ∃ inner ∈ pattern.parts name, Accepts inner own)
      (hsecond : behind = middle ∨ ∃ own, behind = some own ∧ ∃ inner ∈ pattern'.parts name, Accepts inner own) :
      behind = before ∨ ∃ own, behind = some own ∧ ∃ inner ∈ whole.parts name, Accepts inner own := by
    rcases hsecond with rfl | ⟨own, hown, inner, hmem, haccepts⟩
    · exact hfirst.imp id fun ⟨own, hown, inner, hmem, haccepts⟩ => ⟨own, hown, inner, hparts hmem, haccepts⟩
    · exact .inr ⟨own, hown, inner, hparts' hmem, haccepts⟩
  induction h with
  | empty | one | start | finish | stop => exact .inl rfl
  | sequence _ _ ih ih' => exact hboth (List.subset_append_left _ _) (List.subset_append_right _ _) ih ih'
  | first _ ih => exact hboth (List.subset_append_left _ _) (List.subset_append_left _ _) ih (.inl rfl)
  | second _ ih => exact hboth (List.subset_append_right _ _) (List.subset_append_right _ _) ih (.inl rfl)
  | again _ _ _ _ ih ih' => exact hboth (List.Subset.refl _) (List.Subset.refl _) ih ih'
  | idle _ _ _ ih => exact ih
  | @named other inner text rest captures captures' h ih =>
    by_cases hname : name = other
    · subst hname
      obtain ⟨own, rfl, haccepts⟩ := h.exists_accepts
      have htake : (own ++ rest).take ((own ++ rest).length - rest.length) = own := by simp
      rw [htake]
      exact .inr ⟨own, Captures.lookup_record .., inner, by simp [parts], haccepts⟩
    · rw [Captures.lookup_record_of_ne _ hname]
      exact hboth (List.subset_append_right _ _) (List.subset_append_right _ _) ih (.inl rfl)

theorem Parses.lookup_eq {pattern : Pattern} {text rest : List Char} {captures captures' : Captures}
    (h : Parses pattern text captures rest captures') {name : String} (hname : pattern.parts name = []) :
    captures'.lookup name = captures.lookup name := by
  rcases h.lookup_cases name with heq | ⟨own, -, inner, hmem, -⟩
  · exact heq
  · rw [hname] at hmem
    cases hmem

theorem Parses.exists_lookup {name : String} {inner : Pattern} {text rest : List Char} {captures captures' : Captures}
    (h : Parses (.named name inner) text captures rest captures') : ∃ own, captures'.lookup name = some own := by
  cases h with
  | named => exact ⟨_, Captures.lookup_record ..⟩

/-- A named part of a match is accepted by one of the parts of this name. -/
theorem exists_of_part? {inner : Pattern} {text : List Char} {found : Found}
    (h : (Pattern.sequence .start inner).find? text = some found) {name : String} {own : List Char}
    (hown : found.part? name = some own) : ∃ part ∈ inner.parts name, Accepts part own := by
  obtain ⟨rest, hparses⟩ := parses_of_find? h
  rcases hparses.lookup_cases name with hnone | ⟨own', hown', part, hpart, haccepts⟩
  · cases hown.symm.trans hnone
  · obtain rfl : own = own' := Option.some.inj (hown.symm.trans hown')
    exact ⟨part, hpart, haccepts⟩

end SequenceNotation.Pattern
