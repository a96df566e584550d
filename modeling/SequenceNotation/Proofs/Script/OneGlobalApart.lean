import SequenceNotation.Proofs.Script.Room
import SequenceNotation.Proofs.Script.Scope

/-!
# Machines that differ in one global variable

A global variable that nothing reads or assigns makes no difference to a run.  Nothing does if its name is not used in
any function within reach, or if each function has a variable of its own of this name, as a parameter or captured.
-/

namespace SequenceNotation.Script

section

variable (name : String) (own : Prop)

/-- A name that may be used: another one, or the name itself where each function has a variable of its own. -/
def Usable (other : String) : Prop :=
  other ≠ name ∨ own

/-- A value whose functions, and those among their captured variables, use no other names than usable ones. -/
inductive Value.Avoids : Value → Prop
  | undefined : Avoids .undefined
  | null : Avoids .null
  | boolean (b : Bool) : Avoids (.boolean b)
  | number (x : Number.Double) : Avoids (.number x)
  | text (s : String) : Avoids (.text s)
  | function {i : Nat} {parameters : List String} {body : FunctionBody} {F : Frame}
    (hbody : ∀ other ∈ body.names, Usable name own other) (hown : own → name ∈ parameters ∨ (F.get? name).isSome)
    (hcaptured : ∀ p ∈ F, Avoids p.2) : Avoids (.function i parameters body F)

/-- One value on both sides, which avoids the name. -/
abbrev Avoiding : Value → Value → Prop :=
  Both (Value.Avoids name own)

/-- Machines that differ in a global variable of the name at most.  If each function has such a variable of its own, each
frame has one. -/
structure Machine.Beside (m m' : Machine) : Prop where
  globals : ∀ other, other ≠ name → Option.Rel (Avoiding name own) (m.globals.get? other) (m'.globals.get? other)
  calls : List.Forall₂ (FrameMatch (Avoiding name own)) m.calls m'.calls
  created : m'.created = m.created
  frames : own → ∀ frame ∈ m.calls, (frame.get? name).isSome

/-- Such machines where the global variable cannot be seen: if functions have such a variable of their own, one of them
has been called. -/
structure Machine.Apart (m m' : Machine) : Prop extends m.Beside name own m' where
  inCall : own → m.calls ≠ []

end

variable {name : String} {own : Prop}

theorem Value.avoids_of_plain {value : Value} (h : value.typeName ≠ "function") : value.Avoids name own := by
  cases value with
  | undefined => exact .undefined
  | null => exact .null
  | boolean b => exact .boolean b
  | number x => exact .number x
  | text s => exact .text s
  | function => exact absurd rfl h

theorem Value.Made.avoids {Q : String → Prop} {value : Value} (h : value.Made Q) : value.Avoids name own :=
  avoids_of_plain (by cases h <;> simp [Value.typeName])

theorem avoids_property : ValueProperty (fun _ => True) (Usable name own) (Value.Avoids name own) where
  made h := h.avoids
  fits _ := trivial
  shown _ := trivial
  method _ _ := trivial
  function h := by
    cases h with
    | function hbody _ hcaptured => exact ⟨⟨fun _ _ => trivial, hbody⟩, hcaptured⟩

/-- A variable stays when another one is set. -/
theorem Frame.isSome_set {F : Frame} (other : String) (value : Value) (h : (F.get? name).isSome) :
    ((F.set other value).get? name).isSome := by
  rw [Frame.get?_set]
  split
  · rfl
  · exact h

/-- A call has a variable of the name if the function has one of its own. -/
theorem isSome_callFrame {F : Frame} {parameters : List String} (xs : List Value)
    (h : name ∈ parameters ∨ (F.get? name).isSome) :
    ((Interpreter.callFrame F parameters xs).get? name).isSome := by
  induction parameters generalizing F xs with
  | nil =>
    rw [Interpreter.callFrame]
    exact h.resolve_left List.not_mem_nil
  | cons parameter parameters ih =>
    have hset (value : Value) : name ∈ parameters ∨ ((F.set parameter value).get? name).isSome := by
      rcases h with hmem | hframe
      · rcases List.mem_cons.1 hmem with rfl | hmem
        · exact .inr (by rw [Frame.get?_set, if_pos rfl]; rfl)
        · exact .inl hmem
      · exact .inr (Frame.isSome_set parameter value hframe)
    cases xs with
    | nil => exact ih [] (hset .undefined)
    | cons value xs => exact ih xs (hset value)

namespace Machine

variable {m m' : Machine}

/-- The frame of a call hides the global variable, if this is how functions avoid it. -/
theorem Beside.push (h : m.Beside name own m') {i j : Nat} {parameters : List String} {body : FunctionBody}
    {F G : Frame} {xs ys : List Value}
    (hf : Avoiding name own (.function i parameters body F) (.function j parameters body G))
    (hargs : List.Forall₂ (Avoiding name own) xs ys) :
    Apart name own { m with calls := Interpreter.callFrame F parameters xs :: m.calls }
      { m' with calls := Interpreter.callFrame G parameters ys :: m'.calls } := by
  refine ⟨⟨h.globals, .cons (avoids_property.values.callFrame hf hargs) h.calls, h.created, fun hown => ?_⟩,
    fun _ => List.cons_ne_nil _ _⟩
  obtain ⟨-, hfunction⟩ := hf
  cases hfunction with
  | function _ hhas _ => exact List.forall_mem_cons.2 ⟨isSome_callFrame xs (hhas hown), h.frames hown⟩

end Machine

namespace Machine.Apart

variable {m m' : Machine} (h : m.Apart name own m')
include h

theorem lookup? {other : String} (hother : Usable name own other) :
    Option.Rel (Avoiding name own) (m.lookup? other) (m'.lookup? other) := by
  have hcalls := h.calls
  have hframes := h.frames
  have hinCall := h.inCall
  unfold Machine.lookup?
  generalize m.calls = calls at hcalls hframes hinCall
  generalize m'.calls = calls' at hcalls
  cases hcalls with
  | nil => exact h.globals other (hother.resolve_right fun hown => hinCall hown rfl)
  | @cons frame frame' _ _ hframe _ =>
    have hget := hframe.get? other
    by_cases hname : other = name
    · -- the frame has a variable of the name, so that the global one is not looked at
      subst hname
      have hsome := hframes (hother.resolve_left fun hne => hne rfl) frame (.head _)
      dsimp only
      generalize frame.get? other = a at hget hsome
      generalize frame'.get? other = b at hget
      cases hget with
      | none => cases hsome
      | some hv => exact .some hv
    · exact optionRel_or hget (h.globals other hname)

/-- Setting another global variable on both sides. -/
theorem globals_set (other : String) {a b : Value} (hv : Avoiding name own a b) :
    ∀ another, another ≠ name →
      Option.Rel (Avoiding name own) ((m.globals.set other a).get? another) ((m'.globals.set other b).get? another) := by
  intro another hne
  rw [Frame.get?_set, Frame.get?_set]
  split
  · exact .some hv
  · exact h.globals another hne

theorem declare (other : String) {a b : Value} (hv : Avoiding name own a b) :
    (m.declare other a).Apart name own (m'.declare other b) := by
  have hcalls := h.calls
  have hframes := h.frames
  have hinCall := h.inCall
  unfold Machine.declare
  cases hleft : m.calls with
  | nil =>
    rw [hleft] at hcalls hframes hinCall
    rw [List.forall₂_nil_left_iff.1 hcalls]
    exact ⟨⟨h.globals_set other hv, .nil, h.created, hframes⟩, hinCall⟩
  | cons frame outer =>
    rw [hleft] at hcalls hframes
    obtain ⟨frame', outer', hframe, houter, hright⟩ := List.forall₂_cons_left_iff.1 hcalls
    rw [hright]
    refine ⟨⟨h.globals, .cons (hframe.set other hv) houter, h.created, fun hown => ?_⟩, fun _ => List.cons_ne_nil _ _⟩
    obtain ⟨htop, hbelow⟩ := List.forall_mem_cons.1 (hframes hown)
    exact List.forall_mem_cons.2 ⟨Frame.isSome_set other a htop, hbelow⟩

/-- Both sides assign to a global variable, or both to the frame on top. -/
theorem assign {other : String} (hother : Usable name own other) {a b : Value} (hv : Avoiding name own a b) :
    (m.assign other a).Apart name own (m'.assign other b) := by
  have hcalls := h.calls
  have hframes := h.frames
  have hdeclare := h.declare other hv
  unfold Machine.declare at hdeclare
  unfold Machine.assign
  cases hleft : m.calls with
  | nil =>
    rw [hleft] at hcalls hdeclare
    rw [List.forall₂_nil_left_iff.1 hcalls] at hdeclare ⊢
    exact hdeclare
  | cons frame outer =>
    rw [hleft] at hcalls hframes hdeclare
    obtain ⟨frame', outer', hframe, houter, hright⟩ := List.forall₂_cons_left_iff.1 hcalls
    rw [hright] at hdeclare ⊢
    -- A global variable is assigned to if it exists and the frame has none of its name.
    have hwhere : ((frame.get? other).isNone && (m.globals.get? other).isSome) =
        ((frame'.get? other).isNone && (m'.globals.get? other).isSome) := by
      rw [← Option.not_isSome, ← Option.not_isSome, ← optionRel_isSome (hframe.get? other)]
      by_cases hname : other = name
      · subst hname
        rw [hframes (hother.resolve_left fun hne => hne rfl) frame (.head _)]
        rfl
      · rw [optionRel_isSome (h.globals other hname)]
    dsimp only at hdeclare ⊢
    rw [hwhere]
    split
    · exact ⟨⟨h.globals_set other hv, .cons hframe houter, h.created, hframes⟩, fun _ => List.cons_ne_nil _ _⟩
    · exact hdeclare

end Machine.Apart

/-- Functions that use no other names than usable ones do not notice that the machines are apart. -/
theorem variableMatch_apart : VariableMatch (Usable name own) (Avoiding name own) (Machine.Apart name own) where
  values := avoids_property.values
  limits _ _ _ _ _ _ h := ⟨⟨h.globals, h.calls, h.created, h.frames⟩, h.inCall⟩
  lookup h hother := h.lookup? hother
  assign h hother hv := h.assign hother hv
  declare other _ _ h hv := h.declare other hv
  create h := ⟨⟨h.globals, h.calls, congrArg (· + 1) h.created, h.frames⟩, h.inCall⟩
  close {m m'} parameters body h hbody := by
    have hcaptured : FrameMatch (Avoiding name own) m.captured m'.captured := by
      have hcalls := h.calls
      unfold Machine.captured
      generalize m.calls = calls at hcalls
      generalize m'.calls = calls' at hcalls
      cases hcalls with
      | nil => exact .nil
      | cons hframe _ => exact hframe
    obtain ⟨heq, hvalues⟩ := hcaptured.both
    have hown (hown : own) : (m.captured.get? name).isSome := by
      obtain ⟨frame, outer, hcalls⟩ := List.exists_cons_of_ne_nil (h.inCall hown)
      unfold Machine.captured
      rw [hcalls]
      exact h.frames hown frame (hcalls ▸ .head _)
    rw [h.created, ← heq]
    exact ⟨rfl, .function hbody.names (fun h => .inr (hown h)) hvalues⟩
  frames h := h.calls.length_eq.symm
  push h hf hargs := h.toBeside.push hf hargs
  pop {m m' n n'} h hn hlength := by
    have hcalls : List.Forall₂ (FrameMatch (Avoiding name own)) n.calls.tail n'.calls.tail := by
      have hcalls := hn.calls
      generalize n.calls = calls at hcalls
      generalize n'.calls = calls' at hcalls
      cases hcalls with
      | nil => exact .nil
      | cons _ houter => exact houter
    refine ⟨⟨hn.globals, hcalls, hn.created, fun hown frame hframe => ?_⟩, fun hown hempty => ?_⟩
    · exact hn.frames hown frame (List.mem_of_mem_tail hframe)
    · -- there was a frame before the call
      have hpos := List.length_pos_iff.2 (h.inCall hown)
      have htail := congrArg List.length hempty
      rw [List.length_tail, hlength, List.length_nil] at htail
      omega

/-- From outside of any call, too, a call of such a function does not notice it. -/
theorem keeps_call {g : Grant} {m m' : Machine} (hm : m.Beside name own m') (hroom : m.Roomier g .none m')
    {i : Nat} {parameters : List String} {body : FunctionBody} {F : Frame} {arguments : List Value}
    (hf : (Value.function i parameters body F).Avoids name own) (hargs : ∀ value ∈ arguments, value.Avoids name own) :
    Keeps g (fun _ _ => True) Eq ((interpreter.call (.function i parameters body F) arguments).outcome m)
      ((interpreter.call (.function i parameters body F) arguments).outcome m') := by
  have hlength : (Host.machine m').calls.length = (Host.machine m).calls.length := hm.calls.length_eq.symm
  rw [interpreter.call_function, Run.outcome_inFrame, Run.outcome_inFrame, hlength]
  by_cases hfull : maxCallDepth ≤ (Host.machine m).calls.length
  · rw [if_pos hfull, if_pos hfull]
    exact .error _ trivial
  · rw [if_neg hfull, if_neg hfull]
    have hpushed := hm.push ⟨rfl, hf⟩ (List.forall₂_same.2 fun value hvalue => ⟨rfl, hargs value hvalue⟩)
    have hbody : Admitted (fun _ => True) (Usable name own) body.literals body.names :=
      (avoids_property.function hf).1
    have hrun : KeepsUp g (Machine.Apart name own) .none (Avoiding name own) (interpreter.bodyRun body)
        (interpreter.bodyRun body) := (variableMatch_apart.interpreter_parts g).bodyRun (n := 0) hbody
    exact ((hrun 0 _ _ hpushed ⟨⟨hroom.time, hroom.steps⟩, hroom.within, hroom.levels⟩).leave _ _
      fun _ _ _ => trivial).weaken fun _ _ h => h.1

end SequenceNotation.Script
