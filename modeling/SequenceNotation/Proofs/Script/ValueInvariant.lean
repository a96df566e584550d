import SequenceNotation.Proofs.Script.Coupling
import SequenceNotation.Proofs.Script.Results

/-!
# Invariants of values

A property of values that operators, functions and methods keep, and new functions have, holds of whatever
a run computes.  It may depend on how many functions have been created so far.  As a matching it says that
both sides have one value, of which it holds.
-/

namespace SequenceNotation.Script

/-- What operators, functions and methods keep of values, and `Q` of the texts among them and of string literals.  The
bodies of functions have only such literals and names that are admitted. -/
structure ValueProperty (Q Name : String → Prop) (P : Value → Prop) : Prop where
  made : ∀ {v}, v.Made Q → P v
  fits : ∀ {s}, Fits s → Q s
  shown : ∀ {v}, P v → Q v.toText
  method : ∀ {target arguments s}, MethodText target arguments s → P target → Q s
  function : ∀ {i parameters body captured}, P (.function i parameters body captured) →
    Admitted Q Name body.literals body.names ∧ ∀ p ∈ captured, P p.2

/-- What holds of values while so many functions have been created. -/
structure ValueInvariant (Q : String → Prop) (P : Nat → Value → Prop) : Prop where
  property : ∀ n, ValueProperty Q (fun _ => True) (P n)
  later : ∀ {n n' v}, n ≤ n' → P n v → P n' v
  create : ∀ {n parameters body captured}, (∀ t ∈ body.literals, Q t) → (∀ p ∈ captured, P n p.2) →
    P (n + 1) (.function n parameters body captured)

/-- One value on both sides, of which `P` holds. -/
def Both (P : Value → Prop) (a b : Value) : Prop :=
  a = b ∧ P a

theorem eq_and_forall {α : Type} {P : α → Prop} {xs ys : List α}
    (h : List.Forall₂ (fun a b => a = b ∧ P a) xs ys) : xs = ys ∧ ∀ a ∈ xs, P a := by
  induction h with
  | nil => exact ⟨rfl, by simp⟩
  | cons hab _ ih =>
    obtain ⟨rfl, ha⟩ := hab
    obtain ⟨rfl, hrest⟩ := ih
    exact ⟨rfl, List.forall_mem_cons.2 ⟨ha, hrest⟩⟩

section

variable {P : Value → Prop}

/-- One frame on both sides, with such values. -/
theorem FrameMatch.both {F G : Frame} (h : FrameMatch (Both P) F G) : F = G ∧ ∀ p ∈ F, P p.2 :=
  eq_and_forall (P := fun p => P p.2) (h.imp fun _ _ hpq => ⟨Prod.ext hpq.1 hpq.2.1, hpq.2.2⟩)

theorem ResultMatch.of_both {r : Except RuntimeFault Value} (h : ∀ {v}, r = .ok v → P v) :
    ResultMatch (Both P) r r := by
  cases r with
  | ok v => exact .ok ⟨rfl, h rfl⟩
  | error fault => exact .error fault

/-- How a statement ends, with such a value if with any. -/
def Flow.Holds (P : Value → Prop) : Flow → Prop
  | .next => True
  | .returned value => P value

theorem Flow.holds_of_match {f g : Flow} (h : FlowMatch (Both P) f g) : f = g ∧ f.Holds P := by
  cases h with
  | next => exact ⟨rfl, trivial⟩
  | returned hv => exact ⟨congrArg _ hv.1, hv.2⟩

end

namespace ValueProperty

variable {Q Name : String → Prop} {P : Value → Prop} (hP : ValueProperty Q Name P)
include hP

theorem textArgument {arguments : List Value} (h : ∀ value ∈ arguments, P value) :
    Q (textArgument arguments 0) := by
  cases arguments with
  | nil => exact hP.fits (by decide)
  | cons value rest => exact hP.shown (h value (.head _))

/-- Operators, functions and methods keep what holds of values. -/
theorem values : ValueMatch Q Name (Both P) where
  undefined := ⟨rfl, hP.made .undefined⟩
  null := ⟨rfl, hP.made .null⟩
  boolean b := ⟨rfl, hP.made (.boolean b)⟩
  number x := ⟨rfl, hP.made (.number x)⟩
  literal h := ⟨rfl, hP.made (.text h)⟩
  kind v := ⟨rfl, hP.made (.text (hP.fits (fits_typeName v)))⟩
  isTruthy h := congrArg _ h.1
  isNullish h := congrArg _ h.1
  typeName h := congrArg _ h.1
  toNumber h := congrArg _ h.1
  binary operator _ _ _ _ h h' := by
    obtain ⟨rfl, -⟩ := h
    obtain ⟨rfl, -⟩ := h'
    exact .of_both fun h => hP.made ((made_of_applyBinary h).mono fun _ => hP.fits)
  builtin name xs ys h := by
    obtain ⟨rfl, hvalues⟩ := eq_and_forall h
    cases hresult : applyBuiltin? name xs with
    | none => exact .none
    | some v => exact .some ⟨rfl, hP.made ((made_of_applyBuiltin? hresult).mono
        fun _ htext => htext ▸ hP.textArgument hvalues)⟩
  method name _ _ xs ys h hargs := by
    obtain ⟨rfl, htarget⟩ := h
    obtain ⟨rfl, -⟩ := eq_and_forall hargs
    exact .of_both fun h => hP.made ((made_of_applyMethod h).mono
      fun _ htext => htext.elim hP.fits fun h => hP.method h htarget)
  member property _ _ h := by
    obtain ⟨rfl, -⟩ := h
    exact .of_both fun h => hP.made ((made_of_memberOf h).mono fun _ => False.elim)
  function {i parameters body captured v} h := by
    obtain ⟨rfl, hfunction⟩ := h
    obtain ⟨hbody, hcaptured⟩ := hP.function hfunction
    exact ⟨i, captured, rfl, List.forall₂_same.2 fun p hp => ⟨rfl, rfl, hcaptured p hp⟩, hbody⟩

end ValueProperty

end SequenceNotation.Script
