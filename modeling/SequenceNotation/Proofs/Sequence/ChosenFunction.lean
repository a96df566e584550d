import SequenceNotation.Proofs.Notation.NumericGroups
import SequenceNotation.Proofs.Sequence.Collecting

/-!
# The function that a line chooses

A line of an equals sign and digits chooses a configured function by its number.  If the digits are ASCII digits and
the number is no larger than counts can be, this function runs, or nothing is emitted; otherwise the number is lost on
the way, and the default function runs.
-/

namespace SequenceNotation.Notation

open SequenceNotation.Text SequenceNotation.Pattern

/-- Digits are the number of a function. -/
theorem find?_functionBody (delimiter : Option String) {digits : List Char} (h : IsDigits digits) :
    (Segments.ofDelimiter delimiter).find? "func_body" digits =
      some { before := [], matched := digits, after := [], captures := [("number", digits)] } := by
  obtain ⟨hne, hall⟩ := h
  rw [Segments.find?, pattern_functionBody, find?_start]
  refine matchAt_optional_some ?_
  have hrun := fun (next : Continuation Found) (found : Found) =>
    @matchAt_run _ .digit digits [] hne hall rfl 0 [] next found
  rw [List.append_nil] at hrun
  refine hrun _ _ ?_
  refine (matchAt_optional_none rfl).trans ?_
  simp [matchAt, Captures.record]

/-- What digits choose: the function of their number, if it can be read, and else none. -/
theorem readFunction_digits (delimiter : Option String) {digits : List Char} (h : IsDigits digits) :
    readFunction (Segments.ofDelimiter delimiter) digits =
      .function
        (if IsAscii digits ∧ scriptValue digits < countBound then some (scriptValue digits) else none) none := by
  rw [readFunction, find?_functionBody delimiter h, ← readBounded?_digits h.1 h.2]
  rfl

/-- An equals sign and digits choose a function, and nothing remains. -/
theorem classify_function {digits : List Char} (h : IsDigits digits) (defaultStart : String) :
    classify (Segments.ofDelimiter none) defaultStart (String.ofList ('=' :: digits)) =
      { start := .function
          (if IsAscii digits ∧ scriptValue digits < countBound then some (scriptValue digits) else none) none,
        remainder := "" } := by
  have hall := h.2
  have htrim : trim ('=' :: digits) = '=' :: digits :=
    trim_of_forall (List.forall_mem_cons.2 ⟨by decide, fun c hc => isBlank_of_isDecimalDigit (hall c hc)⟩)
  have hmask : mask ('=' :: digits) = '=' :: digits := by
    refine mask_plain (List.forall_mem_cons.2 ⟨by decide, fun c hc => closer?_eq_none ?_⟩)
    exact not_mem_of_isDecimalDigit (hall c hc) (forall_of_all (by decide))
  have htoken : IsToken (EndsToken (delimiterWord? none) keySpellings) digits [] := by
    refine isToken_of_shown (fun c hc => ⟨?_, isBlank_of_isDecimalDigit (hall c hc)⟩) (.inl rfl)
    exact not_mem_of_isDecimalDigit (hall c hc) (forall_of_all (by decide))
  have hend := boundaryAfter_isToken htoken ['=']
  rw [List.append_nil] at hend
  have htaken := takenApart_classify filler_not_mem_none defaultStart (String.ofList ('=' :: digits))
  rw [String.toList_ofList, htrim] at htaken
  refine htaken.unique ⟨['='], digits, [], by simp, rfl, ?_⟩
  have hmark : findMark? (Segments.ofDelimiter none) ('=' :: digits) = some (.function, 1) :=
    findMark?_sign none .function digits
  rw [hmask, hmark]
  exact ⟨rfl, hend, (readFunction_digits none h).symm⟩

end SequenceNotation.Notation

namespace SequenceNotation.Sequence

open SequenceNotation.Notation SequenceNotation.Text

/-- A line makes a sequence of the configured function of a number; without a function nothing is emitted. -/
def RunsFunction (context : Context) (line : String) (number : Nat) : Prop :=
  ∃ sequence function, (prepare context line).value = .ok sequence ∧ sequence.generator = .function function ∧
    function.callable = (compileFunction context number).value ∧
    (function.callable = none → ∀ state index, (sequence.emit state index).value.1 = Emission.stopped)

theorem emit_without_callable {sequence : Sequence} {function : FunctionSequence}
    (hgenerator : sequence.generator = .function function) (hnone : function.callable = none) (state : SequenceState)
    (index : Nat) : (sequence.emit state index).value.1 = Emission.stopped := by
  simp [emit, hgenerator, Generator.emit, Producer.emit, FunctionSequence.producer, hnone]

/-- An equals sign and digits run the function of their number, if it can be read, and else the default function. -/
theorem runsFunction_digits {context : Context} (hsegments : context.segments = Segments.ofDelimiter none)
    {digits : List Char} (h : IsDigits digits) :
    RunsFunction context (String.ofList ('=' :: digits))
      (if IsAscii digits ∧ scriptValue digits < countBound then scriptValue digits
        else context.settings.defaultFunction) := by
  have hclassify := classify_function h context.settings.start
  rw [← hsegments] at hclassify
  have hvalue : (prepare context (String.ofList ('=' :: digits))).value =
      (ofStart context (Modifiers.extract context.segments context.settings "").value (String.ofList ('=' :: digits))
        (.function (if IsAscii digits ∧ scriptValue digits < countBound then some (scriptValue digits) else none)
          none)).value := by
    simp only [prepare, Logged.value_bind, hclassify]
  rw [RunsFunction, hvalue]
  refine ⟨_, _, rfl, rfl, ?_, emit_without_callable rfl⟩
  split <;> rfl

/-- The numbers that took part in the match of a start are used exactly if they are readable, and without a delimiter the
digits behind an equals sign choose the function of their number exactly then. -/
theorem numbers_used_if_readable (context : Context) (delimiter : Option String)
    (hsegments : context.segments = Segments.ofDelimiter delimiter) :
    (∀ (mark : Option StartMark) (body : List Char) (found : Pattern.Found),
        context.segments.find? (bodyName mark) body = some found →
          (NumbersUsed found (readBody context.segments context.settings.start mark body) ↔
            NumbersReadable found (readBody context.segments context.settings.start mark body))) ∧
      (delimiter = none → ∀ digits, IsDigits digits →
        RunsFunction context (String.ofList ('=' :: digits))
          (if IsAscii digits ∧ scriptValue digits < countBound then scriptValue digits
            else context.settings.defaultFunction)) := by
  constructor
  · intro mark body found h
    rw [hsegments] at h ⊢
    exact numbersUsed_iff h context.settings.start
  · rintro rfl digits hdigits
    exact runsFunction_digits hsegments hdigits

/-- One configured function, which is the default. -/
def functionContext : Context :=
  { plainContext with settings := { functions := ["i => i"] }, segments := Segments.ofDelimiter none }

/-- The number one is used, and the first function runs. -/
theorem numbers_used_for_first_function :
    (functionContext.segments = Segments.ofDelimiter none ∧ IsDigits ['1'] ∧
        functionContext.segments.find? "func_body" ['1'] =
          some { before := [], matched := ['1'], after := [], captures := [("number", ['1'])] }) ∧
      NumbersUsed { before := [], matched := ['1'], after := [], captures := [("number", ['1'])] }
          (.function (some 1) none) ∧
        RunsFunction functionContext "=1" 1 := by
  have hdigits : IsDigits ['1'] := ⟨by decide, forall_of_all (by decide)⟩
  have hfind := find?_functionBody none hdigits
  obtain ⟨hused, hruns⟩ := numbers_used_if_readable functionContext none rfl
  refine ⟨⟨rfl, hdigits, hfind⟩, ?_, hruns rfl ['1'] hdigits⟩
  have hread : readBody functionContext.segments functionContext.settings.start (some .function) ['1'] =
      .function (some 1) none := readFunction_digits none hdigits
  have hown := hused (some .function) ['1'] _ hfind
  rw [hread] at hown
  refine hown.2 ⟨?_, nofun⟩
  rintro _ ⟨⟩
  decide

/-- The number of no function runs the default function, since it is larger than counts can be. -/
theorem large_number_runs_default :
    scriptValue "18446744073709551616".toList = 18446744073709551616 ∧
      functionContext.settings.functions[18446744073709551616 - 1]? = none ∧
      ∃ sequence function, (prepare functionContext "=18446744073709551616").value = .ok sequence ∧
        sequence.generator = .function function ∧ function.callable.isSome := by
  have hdigits : IsDigits "18446744073709551616".toList := ⟨by decide, forall_of_all (by decide)⟩
  have hvalue : scriptValue "18446744073709551616".toList = 18446744073709551616 := by decide
  have hlarge : ¬ (IsAscii "18446744073709551616".toList ∧ scriptValue "18446744073709551616".toList < countBound) := by
    rw [hvalue]
    decide
  obtain ⟨sequence, function, hprepare, hgenerator, hcallable, -⟩ := @runsFunction_digits functionContext rfl _ hdigits
  rw [if_neg hlarge] at hcallable
  have hcompiled : (compileFunction functionContext 1).value.isSome := by decide +kernel
  refine ⟨hvalue, rfl, sequence, function, hprepare, hgenerator, ?_⟩
  rw [hcallable]
  exact hcompiled

end SequenceNotation.Sequence
