import SequenceNotation.Proofs.Sequence.Integers

/-!
# Places in a circle of items

The place of an item is computed in 64 bits with a sign, and the distance from the start is a double.  So the items of a
list follow each other in a circle as long as the place of the start, the place behind the distance and the distance
itself are held, and not beyond.
-/

namespace SequenceNotation.Sequence

open SequenceNotation.Number SequenceNotation.Notation SequenceNotation.Pattern

/-! ### Places -/

/-- The item at a place of a list that goes on in a circle. -/
def circleItem? (items : List String) (place : Int) : Option String :=
  items[(place % items.length).toNat]?

theorem toNat_emod_lt {items : List String} (hne : items ≠ []) (place : Int) :
    (place % items.length).toNat < items.length := by
  have hpos : (0 : Int) < items.length := by exact_mod_cast List.length_pos_iff.2 hne
  have hlow := Int.emod_nonneg place hpos.ne'
  have hhigh := Int.emod_lt_of_pos place hpos
  omega

theorem exists_circleItem {items : List String} (hne : items ≠ []) (place : Int) :
    ∃ item, circleItem? items place = some item :=
  ⟨_, List.getElem?_eq_getElem (toNat_emod_lt hne place)⟩

/-- Lists of all lengths, without an item twice. -/
def distinctItems (count : Nat) : List String :=
  (List.range count).map fun n => String.ofList (List.replicate n 'x')

theorem nodup_distinctItems (count : Nat) : (distinctItems count).Nodup := by
  refine List.Nodup.map (fun m n heq => ?_) List.nodup_range
  have hlength := congrArg String.length heq
  simpa using hlength

/-- Places that have the same items in all lists are the same. -/
theorem eq_of_circleItem {place place' : Int}
    (h : ∀ items, items ≠ [] → circleItem? items place = circleItem? items place') : place = place' := by
  -- a list that is longer than the places are apart
  let count := (place - place').natAbs + 1
  have hlength : (distinctItems count).length = count := by
    rw [distinctItems, List.length_map, List.length_range]
  have hne : distinctItems count ≠ [] := List.ne_nil_of_length_pos (by omega)
  have hplaces := (List.getElem?_inj (toNat_emod_lt hne place) (nodup_distinctItems count)).1 (h _ hne)
  rw [hlength] at hplaces
  have hpos : (0 : Int) < count := by omega
  have hlow := Int.emod_nonneg place hpos.ne'
  have hlow' := Int.emod_nonneg place' hpos.ne'
  have hsame : place % count = place' % count := by omega
  have hdvd : (count : Int) ∣ place - place' :=
    Int.dvd_of_emod_eq_zero (Int.emod_eq_emod_iff_emod_sub_eq_zero.1 hsame)
  have hzero : place - place' = 0 := Int.eq_zero_of_dvd_of_natAbs_lt_natAbs hdvd (by omega)
  omega

/-! ### Held integers -/

theorem wrap64_eq_self_iff {n : Int} : wrap64 n = n ↔ -2 ^ 63 ≤ n ∧ n < 2 ^ 63 := by
  have hpow : Nat.pow 2 64 = 2 ^ 64 := rfl
  unfold wrap64
  rw [hpow]
  constructor
  · intro h
    have hlow := @Int.le_bmod n (2 ^ 64) (by decide)
    have hhigh := @Int.bmod_lt n (2 ^ 64) (by decide)
    omega
  · rintro ⟨hlow, hhigh⟩
    exact Int.bmod_eq_of_le (by omega) (by omega)

/-- The second of two sums takes back what the first has cut. -/
theorem wrap64_wrap64_add (m n : Int) : wrap64 (wrap64 m + n) = wrap64 (m + n) :=
  Int.bmod_add_bmod

theorem toInt64_bounds (x : Double) : -2 ^ 63 ≤ x.toInt64 ∧ x.toInt64 < 2 ^ 63 := by
  have hpow : Nat.pow 2 63 = 2 ^ 63 := rfl
  have hbounds := x.toInt_bounds (show -(Nat.pow 2 63 : Int) ≤ 0 by omega) (show 0 ≤ (Nat.pow 2 63 : Int) - 1 by omega)
  rw [hpow] at hbounds
  rw [Double.toInt64, hpow]
  omega

/-! ### Sequences of items -/

/-- The item of a place behind the start, if there are any items. -/
theorem ItemSequence.text_emit {sequence : ItemSequence} (hpadding : sequence.padding = none) {hooks : Hooks}
    (hexpression : hooks.expression = "") (hne : sequence.items ≠ []) (state : SequenceState) (index : Nat) :
    circleItem? sequence.items (wrap64 (sequence.offset + (sequence.folding.logicalIndex index).round.toInt64)) =
      some (sequence.producer.emit hooks state index).value.1.text := by
  obtain ⟨item, hitem⟩ := exists_circleItem hne
    (wrap64 (sequence.offset + (sequence.folding.logicalIndex index).round.toInt64))
  have hown : sequence.producer.own? state.emitted index (hooks.begin state.values index) = some (pure item) := by
    show (sequence.itemAt? index).map pure = _
    rw [show sequence.itemAt? index = some item from hitem]
    rfl
  have htext : sequence.producer.text item = item := by
    show renderText sequence.padding item = item
    rw [hpadding]
    rfl
  rw [hitem, sequence.producer.text_emit hexpression hown]
  exact congrArg some htext.symm

/-- Without a padding and an expression the text is the item of the place that is computed. -/
theorem text_emit_ofItems {context : Context} {modifiers : Modifiers} (hexpression : trimmed modifiers.expression = "")
    (hpadding : padding context modifiers = none) {position : Nat} (hposition : 0 < position) {items : List String}
    (hne : items ≠ []) (state : SequenceState) (index : Nat) :
    circleItem? items (wrap64 (position - 1 + (modifiers.folding.logicalIndex index).round.toInt64)) =
      some ((ofItems context .ownList modifiers items (position - 1)).emit state index).value.1.text := by
  have hoffset : ((position - 1 : Nat) : Int) = position - 1 := by omega
  have hown := @ItemSequence.text_emit
    { items, offset := wrap64 (position - 1 : Nat), folding := modifiers.folding, padding := padding context modifiers }
    hpadding (context.hooks modifiers) hexpression hne state index
  refine Eq.trans ?_ hown
  dsimp only
  rw [wrap64_wrap64_add, hoffset]

/-- Of all lists that start at a position, the text at an index is the item of a place. -/
def TextsAt (context : Context) (modifiers : Modifiers) (position index : Nat) (place : Int) : Prop :=
  ∀ items line state, items ≠ [] →
    ∃ sequence, (ofStart context modifiers line (.ownList items position)).value = .ok sequence ∧
      circleItem? items place = some (sequence.emit state index).value.1.text

/-- It is the item of one place only, the one that is computed. -/
theorem textsAt_iff {context : Context} {modifiers : Modifiers} (hexpression : trimmed modifiers.expression = "")
    (hpadding : padding context modifiers = none) {position index : Nat} (hposition : 0 < position) {place : Int} :
    TextsAt context modifiers position index place ↔
      wrap64 (position - 1 + (modifiers.folding.logicalIndex index).round.toInt64) = place := by
  constructor
  · intro h
    refine eq_of_circleItem fun items hne => ?_
    have state : SequenceState := (ofItems context .ownList modifiers items (position - 1)).initial
    obtain ⟨sequence, hsequence, hitem⟩ := h items "" state hne
    cases hsequence
    rw [text_emit_ofItems hexpression hpadding hposition hne state index, hitem]
  · rintro rfl items line state hne
    exact ⟨_, rfl, text_emit_ofItems hexpression hpadding hposition hne state index⟩

/-- The place of the start and the one behind a distance are integers of 64 bits with a sign. -/
def PlacesHeld (position : Nat) (distance : Int) : Prop :=
  wrap64 (position - 1) = position - 1 ∧ wrap64 (position - 1 + distance) = position - 1 + distance

/-- The items of all lists follow each other in a circle, and no sum leaves its range, exactly if the distance is the
steps made so far, and the places of the start and behind the steps have no more than 63 bits.  Up to `2 ^ 53` the
distance always is. -/
theorem textsAt_steps_iff {context : Context} {modifiers : Modifiers} (hexpression : trimmed modifiers.expression = "")
    (hpadding : padding context modifiers = none) {step : Int} (hstep : modifiers.step.integer? = some step)
    {position index : Nat} (hposition : 0 < position) (hindex : index < 2 ^ 64) {distance steps : Int}
    (hdistance : distance = (modifiers.folding.logicalIndex index).round.toInt64)
    (hsteps : steps = step * modifiers.folding.fold index) :
    (TextsAt context modifiers position index (position - 1 + steps) ∧ PlacesHeld position distance ↔
      distance = steps ∧ position ≤ 2 ^ 63 ∧ position - 1 + steps < 2 ^ 63) ∧
      (steps.natAbs ≤ 2 ^ 53 → distance = steps) := by
  have hbounds := toInt64_bounds (modifiers.folding.logicalIndex index).round
  rw [textsAt_iff hexpression hpadding hposition, PlacesHeld, wrap64_eq_self_iff, wrap64_eq_self_iff, ← hdistance]
  rw [← hdistance] at hbounds
  refine ⟨⟨?_, ?_⟩, fun hexact => ?_⟩
  · rintro ⟨hplace, hfirst, hsum⟩
    rw [wrap64_eq_self_iff.2 hsum] at hplace
    omega
  · rintro ⟨rfl, hfirst, hsum⟩
    have hheld : -2 ^ 63 ≤ position - 1 + distance ∧ position - 1 + distance < 2 ^ 63 := by omega
    exact ⟨wrap64_eq_self_iff.2 hheld, by omega, hheld⟩
  · rw [hdistance, hsteps]
    exact Folding.toInt64_logicalIndex hstep hindex (hsteps ▸ hexact)

/-- One step backwards at each index. -/
def backwards : Modifiers :=
  { Modifiers.ofSettings {} with step := -1 }

/-- Five steps back from the second of three items. -/
theorem textsAt_backwards :
    TextsAt plainContext backwards 2 5 (-4) ∧ circleItem? ["a", "b", "c"] (-4) = some "c" := by
  have hone : (1 : Double).integer? = some 1 := Double.integer?_literal (show 1 ≤ Double.exactLimit by decide)
  have hplaces := @textsAt_steps_iff plainContext backwards rfl rfl (-1) (Double.integer?_neg hone) 2 5 (by decide)
    (by decide) _ (-5) rfl rfl
  exact ⟨(hplaces.1.2 ⟨hplaces.2 (by decide), by decide, by decide⟩).1, rfl⟩

/-- A notation of lists only. -/
def listContext : Context :=
  { plainContext with
    segments :=
      { entries :=
          [{ name := "own_prefix", text := [], pattern := (readPattern? "^\\[".toList).getD .nothing },
           { name := "own_body", text := [],
             pattern := (readPattern? "^(?P<list>\\[.*\\])(?P<start>\\d+)?$".toList).getD .nothing }] } }

/-- Behind `2 ^ 63` items the place of the start is cut, and another item is the first one. -/
theorem start_place_is_cut :
    ∃ sequence, (prepare listContext "[a,b,c]9223372036854775809").value = .ok sequence ∧
      (classify listContext.segments listContext.settings.start "[a,b,c]9223372036854775809").start =
        .ownList ["a", "b", "c"] 9223372036854775809 ∧
      (trimmed sequence.modifiers.expression = "" ∧ padding listContext sequence.modifiers = none ∧
        sequence.modifiers.step.integer? = some 1 ∧ sequence.modifiers.folding.fold 0 = 0) ∧
      (sequence.emit sequence.initial 0).value.1.text = "b" ∧
      circleItem? ["a", "b", "c"] (9223372036854775809 - 1 + 1 * 0) = some "c" := by
  have hstart : (classify listContext.segments listContext.settings.start "[a,b,c]9223372036854775809").start =
      .ownList ["a", "b", "c"] 9223372036854775809 := by
    decide +kernel
  have hprepare : (prepare listContext "[a,b,c]9223372036854775809").value =
      .ok (ofItems listContext .ownList (Modifiers.extract listContext.segments listContext.settings
        (classify listContext.segments listContext.settings.start "[a,b,c]9223372036854775809").remainder).value
        ["a", "b", "c"] (9223372036854775809 - 1)) := by
    simp only [prepare, Logged.value_bind, hstart, ofStart]
    rfl
  generalize hmodifiers : (Modifiers.extract listContext.segments listContext.settings _).value = modifiers at hprepare
  have hplain : trimmed modifiers.expression = "" ∧ padding listContext modifiers = none ∧
      modifiers.step.integer? = some 1 ∧ modifiers.folding.fold 0 = 0 := by
    rw [← hmodifiers]
    decide +kernel
  have hdistance : (modifiers.folding.logicalIndex 0).round.toInt64 = 0 :=
    Folding.toInt_logicalIndex_of_fold hplain.2.2.2 (by decide) (by decide)
  -- The place `2 ^ 63` is cut to `-2 ^ 63`, which leaves one item of the circle over.
  have hcut : circleItem? ["a", "b", "c"] (wrap64 ((9223372036854775809 : Nat) - 1 + 0)) = some "b" := by
    decide
  have htext := text_emit_ofItems hplain.1 hplain.2.1 (show 0 < 9223372036854775809 by decide)
    (show ["a", "b", "c"] ≠ [] by decide)
    (ofItems listContext .ownList modifiers ["a", "b", "c"] (9223372036854775809 - 1)).initial 0
  rw [hdistance, hcut] at htext
  exact ⟨_, hprepare, hstart, hplain, (Option.some.inj htext).symm, by decide⟩

end SequenceNotation.Sequence
