import SequenceNotation.Proofs.Text.LowerCase
import SequenceNotation.Sequence.Kind.Items

/-!
# Searching lists without regard to case

A configured list is found by one of its items.  Without regard to case the lower case of the sought text is looked for
in the lower case of the items.  A text that stands in an item need not be found so: a capital sigma of the text can
have another lower case within the item.  This module says for which texts every match is kept, and that for these
texts the search without regard to case finds the same list or an earlier one.
-/

namespace SequenceNotation.Sequence

open SequenceNotation.Text SequenceNotation.Notation

/-! ### Matches -/

theorem occursIn_iff {part text : List Char} : occursIn part text ↔ part <:+: text := by
  induction text with
  | nil => simp [occursIn]
  | cons c rest ih => simp [occursIn, List.infix_cons_iff, ih]

namespace SearchOptions

variable {options : SearchOptions}

/-- The text that is compared, in lower case if the case is ignored. -/
def compared (options : SearchOptions) (text : String) : List Char :=
  if options.ignoreCase then lowerText text.toList else text.toList

/-- A text stands in another one where the options look for it. -/
def Finds (options : SearchOptions) (part text : List Char) : Prop :=
  ∃ front back, text = front ++ part ++ back ∧ (options.fullMatch ∨ options.prefixMatch → front = []) ∧
    (options.fullMatch → back = [])

theorem Finds.isInfix {part text : List Char} (h : options.Finds part text) : part <:+: text := by
  obtain ⟨front, back, rfl, -, -⟩ := h
  exact ⟨front, back, rfl⟩

theorem accepts_iff (item sought : String) :
    options.accepts item sought ↔ options.Finds (options.compared sought) (options.compared item) := by
  show (if options.fullMatch then decide (options.compared item = options.compared sought)
    else if options.prefixMatch then (options.compared sought).isPrefixOf (options.compared item)
    else occursIn (options.compared sought) (options.compared item)) = true ↔ _
  generalize options.compared item = text, options.compared sought = part
  unfold Finds
  by_cases hfull : options.fullMatch
  · simp [hfull]
  · by_cases hstart : options.prefixMatch
    · simp [hfull, hstart, List.IsPrefix, @eq_comm _ text]
    · simp [hfull, hstart, occursIn_iff, List.IsInfix, @eq_comm _ text]

/-! ### Which texts keep their matches -/

/-- No sigma of the sought text depends on what can stand around a match. -/
def Settles (options : SearchOptions) (sought : String) : Prop :=
  (options.fullMatch ∨ options.prefixMatch ∨ ¬SigmaOpenInFront sought.toList) ∧
    (options.fullMatch ∨ ¬SigmaOpenBehind sought.toList)

/-- A text without a capital sigma has none that depends on anything. -/
theorem settles_of_not_mem {sought : String} (h : 'Σ' ∉ sought.toList) : options.Settles sought := by
  have hnone (pre post : List Char) : sought.toList ≠ pre ++ 'Σ' :: post := fun heq => h (by simp [heq])
  constructor
  · exact .inr (.inr fun ⟨pre, post, heq, _⟩ => hnone pre post heq)
  · exact .inr fun ⟨pre, post, heq, _⟩ => hnone pre post heq

theorem Finds.lowerText {sought item : String} (h : options.Finds sought.toList item.toList)
    (hsettles : options.Settles sought) :
    options.Finds (lowerText sought.toList) (lowerText item.toList) := by
  obtain ⟨front, back, heq, hfront, hback⟩ := h
  obtain ⟨hopenFront, hopenBack⟩ := hsettles
  refine ⟨lowerWithin [] front (sought.toList ++ back), lowerFrom (sought.toList.reverse ++ front.reverse) back, ?_, ?_, ?_⟩
  · have hsame : lowerWithin front.reverse sought.toList back = Text.lowerText sought.toList := by
      apply lowerWithin_eq_lowerText
      · rcases hopenFront with hfull | hstart | hopen
        · exact .inl (hfront (.inl hfull))
        · exact .inl (hfront (.inr hstart))
        · exact .inr hopen
      · exact hopenBack.imp_left hback
    rw [heq, lowerText_append_append, hsame]
  · intro hstart
    simp [hfront hstart, lowerWithin]
  · intro hfull
    simp [hback hfull, lowerFrom]

end SearchOptions

/-- A text of the same length as another one that stands in it behind one more character begins with this character,
unless it is the other one. -/
theorem head?_of_isInfix_cons {part rest : List Char} {c : Char} (h : part <:+: c :: rest)
    (hlength : part.length = rest.length) (hne : part ≠ rest) : part.head? = some c := by
  rcases List.infix_cons_iff.1 h with hstart | hwithin
  · cases part with
    | nil => exact absurd (List.length_eq_zero_iff.1 hlength.symm).symm hne
    | cons d part => simp [(List.cons_prefix_cons.1 hstart).1]
  · exact absurd (hwithin.eq_of_length hlength) hne

theorem getLast?_of_isInfix_concat {part rest : List Char} {c : Char} (h : part <:+: rest ++ [c])
    (hlength : part.length = rest.length) (hne : part ≠ rest) : part.getLast? = some c := by
  rw [← List.head?_reverse]
  apply head?_of_isInfix_cons
  · simpa using List.reverse_infix.2 h
  · simpa using hlength
  · simpa using hne

namespace SearchOptions

variable {options : SearchOptions}

/-- A letter in front of the sought text hides it if a sigma is open in front. -/
theorem exists_lost_of_openInFront {sought : String} (hopen : SigmaOpenInFront sought.toList)
    (hstart : ¬(options.fullMatch ∨ options.prefixMatch)) :
    ∃ item : String, options.Finds sought.toList item.toList ∧
      ¬options.Finds (lowerText sought.toList) (lowerText item.toList) := by
  obtain ⟨c, hcased, hlower, hhead⟩ := exists_cased_ne (lowerText sought.toList).head?
  refine ⟨String.ofList (c :: sought.toList), ⟨[c], [], by simp, fun h => absurd h hstart, fun _ => rfl⟩, fun hfinds => ?_⟩
  have hitem : lowerText (c :: sought.toList) = c :: lowerWithin [c] sought.toList [] := by
    have hparts := lowerText_append_append [c] sought.toList []
    simpa [lowerWithin, hlower, lowerFrom] using hparts
  rw [String.toList_ofList, hitem] at hfinds
  apply hhead
  apply head?_of_isInfix_cons hfinds.isInfix
  · rw [lowerText_eq]
    exact length_lowerWithin ..
  · exact (lowerWithin_ne_of_openInFront hopen hcased).symm

/-- A letter behind the sought text hides it if a sigma is open behind. -/
theorem exists_lost_of_openBehind {sought : String} (hopen : SigmaOpenBehind sought.toList)
    (hfull : ¬options.fullMatch = true) :
    ∃ item : String, options.Finds sought.toList item.toList ∧
      ¬options.Finds (lowerText sought.toList) (lowerText item.toList) := by
  obtain ⟨c, hcased, hlower, hlast⟩ := exists_cased_ne (lowerText sought.toList).getLast?
  refine ⟨String.ofList (sought.toList ++ [c]), ⟨[], [c], by simp, fun _ => rfl, fun h => absurd h hfull⟩, fun hfinds => ?_⟩
  have hitem : lowerText (sought.toList ++ [c]) = lowerWithin [] sought.toList [c] ++ [c] := by
    have hparts := lowerText_append_append [] sought.toList [c]
    simpa [lowerWithin, hlower, lowerFrom_singleton] using hparts
  rw [String.toList_ofList, hitem] at hfinds
  apply hlast
  apply getLast?_of_isInfix_concat hfinds.isInfix
  · rw [lowerText_eq]
    exact length_lowerWithin ..
  · exact (lowerWithin_ne_of_openBehind hopen hcased).symm

/-- Every match is kept when the case is ignored if and only if no sigma of the sought text depends on what stands
around the match. -/
theorem keeps_iff_settles (options : SearchOptions) (sought : String) :
    (∀ item, { options with ignoreCase := false }.accepts item sought →
        { options with ignoreCase := true }.accepts item sought) ↔
      options.Settles sought := by
  simp only [accepts_iff]
  constructor
  · intro hkeeps
    have hkeeps' : ∀ item : String, options.Finds sought.toList item.toList →
        options.Finds (lowerText sought.toList) (lowerText item.toList) := hkeeps
    constructor
    · by_cases hstart : options.fullMatch ∨ options.prefixMatch
      · exact hstart.imp_right .inl
      · refine .inr (.inr fun hopen => ?_)
        obtain ⟨item, hfinds, hlost⟩ := exists_lost_of_openInFront hopen hstart
        exact hlost (hkeeps' item hfinds)
    · by_cases hfull : options.fullMatch
      · exact .inl hfull
      · refine .inr fun hopen => ?_
        obtain ⟨item, hfinds, hlost⟩ := exists_lost_of_openBehind hopen hfull
        exact hlost (hkeeps' item hfinds)
  · intro hsettles item hfinds
    exact Finds.lowerText hfinds hsettles

end SearchOptions

/-! ### The list that is found -/

/-- A list with a match is found, or one in front of it. -/
theorem exists_selectList?_of_accepts {options : SearchOptions} {sought item : String} {lists : List (List String)}
    {list : List String} {i : Nat} (hlist : lists[i]? = some list) (hitem : item ∈ list)
    (haccepts : options.accepts item sought) :
    ∃ earlier place, selectList? lists (.search sought) options = some (earlier, place) ∧
      ∃ j ≤ i, lists[j]? = some earlier := by
  induction lists generalizing i with
  | nil => simp at hlist
  | cons first rest ih =>
    cases hplace : first.findIdx? (options.accepts · sought) with
    | some place =>
      refine ⟨first, place, ?_, 0, Nat.zero_le i, rfl⟩
      simp [selectList?, hplace]
    | none =>
      cases i with
      | zero =>
        obtain rfl : first = list := by simpa using hlist
        rw [List.findIdx?_eq_none_iff] at hplace
        simp [hplace item hitem] at haccepts
      | succ i =>
        obtain ⟨earlier, place, hselect, j, hle, hearlier⟩ := ih (by simpa using hlist)
        refine ⟨earlier, place, ?_, j + 1, Nat.succ_le_succ hle, by simpa using hearlier⟩
        simpa [selectList?, List.findSome?_cons, hplace] using hselect

/-- A list that is found is one of the lists, and has a match. -/
theorem exists_accepts_of_selectList? {options : SearchOptions} {sought : String} {lists : List (List String)}
    {list : List String} {place : Nat} (h : selectList? lists (.search sought) options = some (list, place)) :
    list ∈ lists ∧ ∃ item ∈ list, options.accepts item sought := by
  obtain ⟨found, hmem, hfound⟩ := List.exists_of_findSome?_eq_some h
  obtain ⟨place', hplace, heq⟩ := Option.map_eq_some_iff.1 hfound
  obtain ⟨rfl, rfl⟩ := Prod.mk.inj heq
  obtain ⟨hlt, haccepts, -⟩ := List.findIdx?_eq_some_iff_getElem.1 hplace
  exact ⟨hmem, _, List.getElem_mem hlt, haccepts⟩

/-- Wherever one list stands among some lists, another one stands there or in front of it. -/
def StandsNoLater (lists : List (List String)) (earlier list : List String) : Prop :=
  ∀ i : Nat, lists[i]? = some list → ∃ j ≤ i, lists[j]? = some earlier

/-- If every match is kept when the case is ignored, a search that finds a list still finds it or an earlier one. -/
theorem exists_selectList?_of_keeps {options options' : SearchOptions} {sought : String}
    (hkeeps : ∀ item, options.accepts item sought → options'.accepts item sought) {lists : List (List String)}
    {list : List String} {place : Nat} (h : selectList? lists (.search sought) options = some (list, place)) :
    ∃ earlier place', selectList? lists (.search sought) options' = some (earlier, place') ∧
      StandsNoLater lists earlier list := by
  obtain ⟨hlist, item, hitem, haccepts⟩ := exists_accepts_of_selectList? h
  have hfound (i : Nat) (hi : lists[i]? = some list) := exists_selectList?_of_accepts hi hitem (hkeeps item haccepts)
  obtain ⟨i, hi⟩ := List.mem_iff_getElem?.1 hlist
  obtain ⟨earlier, place', hselect, -⟩ := hfound i hi
  refine ⟨earlier, place', hselect, ?_⟩
  intro i' hi'
  obtain ⟨earlier', place'', hselect', hearlier⟩ := hfound i' hi'
  obtain ⟨rfl, -⟩ : earlier = earlier' ∧ place' = place'' := by simpa [hselect] using hselect'
  exact hearlier

/-- Ignoring the case keeps every match of a sought text, and a search for it still finds the same list or an earlier
one, if and only if no sigma of the text depends on what can stand around a match. -/
theorem ignoring_case_keeps_matches_iff (options : SearchOptions) (sought : String) :
    ((∀ item, { options with ignoreCase := false }.accepts item sought →
          { options with ignoreCase := true }.accepts item sought) ↔
        options.Settles sought) ∧
      ((∀ lists list place,
          selectList? lists (.search sought) { options with ignoreCase := false } = some (list, place) →
            ∃ earlier place', selectList? lists (.search sought) { options with ignoreCase := true } =
                some (earlier, place') ∧ StandsNoLater lists earlier list) ↔
        options.Settles sought) := by
  have hiff := options.keeps_iff_settles sought
  refine ⟨hiff, ?_, fun hsettles _ _ _ hselect => exists_selectList?_of_keeps (hiff.2 hsettles) hselect⟩
  intro hselects
  apply hiff.1
  intro item haccepts
  -- a search among one list of one item
  have hown : selectList? [[item]] (.search sought) { options with ignoreCase := false } = some ([item], 0) := by
    simp [selectList?, haccepts]
  obtain ⟨earlier, place', hselect, -⟩ := hselects [[item]] [item] 0 hown
  obtain ⟨hlist, found, hfound, hkept⟩ := exists_accepts_of_selectList? hselect
  obtain rfl := List.mem_singleton.1 hlist
  obtain rfl := List.mem_singleton.1 hfound
  exact hkept

/-- A sigma that is final in the sought text, but not in the item that begins with this text, hides the item. -/
theorem final_sigma_loses_match :
    ({} : SearchOptions).accepts "ΣΊΣΥΦΟΣ" "ΣΊΣ" ∧
      ¬({ ignoreCase := true } : SearchOptions).accepts "ΣΊΣΥΦΟΣ" "ΣΊΣ" ∧
      selectList? [["ΣΊΣΥΦΟΣ"]] (.search "ΣΊΣ") {} = some (["ΣΊΣΥΦΟΣ"], 0) ∧
      selectList? [["ΣΊΣΥΦΟΣ"]] (.search "ΣΊΣ") { ignoreCase := true } = none := by
  decide +kernel

end SequenceNotation.Sequence
