import SequenceNotation.Script.Evaluate

/-!
# Variables

What a frame holds under a name, before and after a variable is set, and in the frame of a call; and what
holds of the values of all variables of a machine.
-/

namespace SequenceNotation.Script

namespace Frame

variable {F : Frame} {P : Value → Prop}

theorem get?_cons (name : String) (p : String × Value) (F : Frame) :
    get? (p :: F) name = if name = p.1 then some p.2 else F.get? name := by
  unfold get?
  rw [List.lookup_cons]
  by_cases h : name = p.1
  · rw [if_pos h, beq_iff_eq.2 h]
  · rw [if_neg h, beq_eq_false_iff_ne.2 h]

theorem get?_set (F : Frame) (name other : String) (value : Value) :
    (F.set name value).get? other = if other = name then some value else F.get? other := by
  induction F with
  | nil => rw [Frame.set, get?_cons]
  | cons p F ih =>
    obtain ⟨key, old⟩ := p
    unfold Frame.set
    by_cases hkey : key = name
    · subst hkey
      rw [if_pos rfl, get?_cons, get?_cons]
      by_cases hother : other = key
      · rw [if_pos hother, if_pos hother]
      · rw [if_neg hother, if_neg hother, if_neg hother]
    · rw [if_neg hkey, get?_cons, get?_cons, ih]
      by_cases hother : other = key
      · rw [if_pos hother, if_pos hother, if_neg fun h => hkey (hother.symm.trans h)]
      · rw [if_neg hother, if_neg hother]

theorem mem_of_get? {name : String} {value : Value} (h : F.get? name = some value) :
    ∃ p ∈ F, p.2 = value := by
  induction F with
  | nil => cases h
  | cons p F ih =>
    rw [get?_cons] at h
    by_cases hname : name = p.1
    · rw [if_pos hname] at h
      exact ⟨p, .head _, Option.some.inj h⟩
    · rw [if_neg hname] at h
      obtain ⟨q, hq, hvalue⟩ := ih h
      exact ⟨q, .tail _ hq, hvalue⟩

theorem forall_set {name : String} {value : Value} (hF : ∀ p ∈ F, P p.2) (hvalue : P value) :
    ∀ p ∈ F.set name value, P p.2 := by
  induction F with
  | nil => simpa [Frame.set] using hvalue
  | cons p F ih =>
    obtain ⟨hfirst, hrest⟩ := List.forall_mem_cons.1 hF
    unfold Frame.set
    split
    · exact List.forall_mem_cons.2 ⟨hvalue, hrest⟩
    · exact List.forall_mem_cons.2 ⟨hfirst, ih hrest⟩

end Frame

/-- All variables of the machine, the global ones and those of calls, have such values. -/
structure Machine.Holds (P : Value → Prop) (m : Machine) : Prop where
  globals : ∀ p ∈ m.globals, P p.2
  calls : ∀ frame ∈ m.calls, ∀ p ∈ frame, P p.2

namespace Machine.Holds

variable {P Q : Value → Prop} {m : Machine} (h : m.Holds P)
include h

theorem mono (hPQ : ∀ v, P v → Q v) : m.Holds Q :=
  ⟨fun p hp => hPQ _ (h.globals p hp), fun frame hframe p hp => hPQ _ (h.calls frame hframe p hp)⟩

theorem lookup? {name : String} {value : Value} (hvalue : m.lookup? name = some value) : P value := by
  unfold Machine.lookup? at hvalue
  split at hvalue
  · obtain ⟨p, hp, rfl⟩ := Frame.mem_of_get? hvalue
    exact h.globals p hp
  · rename_i frame outer hcalls
    rcases Option.or_eq_some_iff.1 hvalue with hframe | ⟨-, hglobal⟩
    · obtain ⟨p, hp, rfl⟩ := Frame.mem_of_get? hframe
      exact h.calls frame (hcalls ▸ .head _) p hp
    · obtain ⟨p, hp, rfl⟩ := Frame.mem_of_get? hglobal
      exact h.globals p hp

theorem captured : ∀ p ∈ m.captured, P p.2 := by
  unfold Machine.captured
  cases hcalls : m.calls with
  | nil => simp
  | cons frame outer => exact h.calls frame (hcalls ▸ .head _)

theorem assign (name : String) {value : Value} (hvalue : P value) : (m.assign name value).Holds P := by
  unfold Machine.assign
  split
  · exact ⟨Frame.forall_set h.globals hvalue, h.calls⟩
  · rename_i frame outer hcalls
    obtain ⟨hframe, houter⟩ := List.forall_mem_cons.1 (hcalls ▸ h.calls)
    split
    · exact ⟨Frame.forall_set h.globals hvalue, h.calls⟩
    · exact ⟨h.globals, List.forall_mem_cons.2 ⟨Frame.forall_set hframe hvalue, houter⟩⟩

theorem declare (name : String) {value : Value} (hvalue : P value) : (m.declare name value).Holds P := by
  unfold Machine.declare
  split
  · exact ⟨Frame.forall_set h.globals hvalue, h.calls⟩
  · rename_i frame outer hcalls
    obtain ⟨hframe, houter⟩ := List.forall_mem_cons.1 (hcalls ▸ h.calls)
    exact ⟨h.globals, List.forall_mem_cons.2 ⟨Frame.forall_set hframe hvalue, houter⟩⟩

theorem push {frame : Frame} (hframe : ∀ p ∈ frame, P p.2) :
    Holds P { m with calls := frame :: m.calls } :=
  ⟨h.globals, List.forall_mem_cons.2 ⟨hframe, h.calls⟩⟩

theorem pop : Holds P { m with calls := m.calls.tail } :=
  ⟨h.globals, fun frame hframe => h.calls frame (List.mem_of_mem_tail hframe)⟩

end Machine.Holds

/-- A name that is no parameter means in the frame of a call what the function captured. -/
theorem get?_callFrame {name : String} {parameters : List String} (h : name ∉ parameters)
    (captured : Frame) (arguments : List Value) :
    (Interpreter.callFrame captured parameters arguments).get? name = captured.get? name := by
  induction parameters generalizing captured arguments with
  | nil => simp [Interpreter.callFrame]
  | cons parameter parameters ih =>
    obtain ⟨hne, hrest⟩ := not_or.1 (mt List.mem_cons.2 h)
    cases arguments with
    | nil => rw [Interpreter.callFrame, ih hrest, Frame.get?_set, if_neg hne]
    | cons value arguments => rw [Interpreter.callFrame, ih hrest, Frame.get?_set, if_neg hne]

end SequenceNotation.Script
