import SequenceNotation.Proofs.Script.Coupling
import SequenceNotation.Proofs.Script.Results

/-!
# Values up to the identities of functions

Two runs may number the functions they create differently.  What they compute is then alike: the same but
for the identities, which correspond one to one.  No operator, function or method can tell such values
apart, since all that can be asked of an identity is whether it is equal to another one.
-/

namespace SequenceNotation.Script

open SequenceNotation.Number

/-- Values that are the same but for the identities of functions, which correspond by `ids`.  Functions
are compared by their parameters, their bodies and the variables they captured. -/
inductive Value.Alike (ids : Nat → Nat → Prop) : Value → Value → Prop
  | undefined : Alike ids .undefined .undefined
  | null : Alike ids .null .null
  | boolean (b : Bool) : Alike ids (.boolean b) (.boolean b)
  | number (x : Double) : Alike ids (.number x) (.number x)
  | text (s : String) : Alike ids (.text s) (.text s)
  | function {i j : Nat} {parameters : List String} {body : FunctionBody} {F G : Frame}
    (hid : ids i j) (hnames : F.map Prod.fst = G.map Prod.fst)
    (hvalues : ∀ k (hF : k < F.length) (hG : k < G.length), Alike ids F[k].2 G[k].2) :
    Alike ids (.function i parameters body F) (.function j parameters body G)

/-- All functions in the value, and in what they captured, are among the first `n`. -/
inductive Value.CreatedBefore (n : Nat) : Value → Prop
  | undefined : CreatedBefore n .undefined
  | null : CreatedBefore n .null
  | boolean (b : Bool) : CreatedBefore n (.boolean b)
  | number (x : Double) : CreatedBefore n (.number x)
  | text (s : String) : CreatedBefore n (.text s)
  | function {i : Nat} {parameters : List String} {body : FunctionBody} {F : Frame} (hid : i < n)
    (hcaptured : ∀ p ∈ F, CreatedBefore n p.2) : CreatedBefore n (.function i parameters body F)

/-- Frames match when they have the same names and matching values at each place. -/
theorem frameMatch_iff {Val : Value → Value → Prop} {F G : Frame} :
    FrameMatch Val F G ↔ F.map Prod.fst = G.map Prod.fst ∧
      ∀ k (hF : k < F.length) (hG : k < G.length), Val F[k].2 G[k].2 := by
  constructor
  · intro h
    refine ⟨?_, fun k hF hG => ((List.forall₂_iff_get.1 h).2 k hF hG).2⟩
    refine List.forall₂_eq_eq_eq ▸ ?_
    rw [List.forall₂_map_left_iff, List.forall₂_map_right_iff]
    exact h.imp fun _ _ hpq => hpq.1
  · rintro ⟨hnames, hvalues⟩
    have hlength : F.length = G.length := by simpa using congrArg List.length hnames
    refine List.forall₂_iff_get.2 ⟨hlength, fun k hF hG => ⟨?_, hvalues k hF hG⟩⟩
    have hname := congrArg (·[k]?) hnames
    simpa [hF, hG] using hname

namespace Value.Alike

variable {ids ids' : Nat → Nat → Prop} {a b c d : Value}

theorem mono (hids : ∀ i j, ids i j → ids' i j) (h : a.Alike ids b) : a.Alike ids' b := by
  induction h with
  | function hid hnames _ ih => exact .function (hids _ _ hid) hnames ih
  | undefined => exact .undefined
  | null => exact .null
  | boolean b => exact .boolean b
  | number x => exact .number x
  | text s => exact .text s

/-- A value is like itself when the identities of its functions stay. -/
theorem refl {n : Nat} (hids : ∀ i, i < n → ids i i) (h : a.CreatedBefore n) : a.Alike ids a := by
  induction h with
  | function hid _ ih => exact .function (hids _ hid) rfl fun _ hF _ => ih _ (List.getElem_mem hF)
  | undefined => exact .undefined
  | null => exact .null
  | boolean b => exact .boolean b
  | number x => exact .number x
  | text s => exact .text s

/-- A value is like itself when all identities stay. -/
theorem self (hids : ∀ i, ids i i) (a : Value) : a.Alike ids a :=
  match a with
  | .undefined => .undefined
  | .null => .null
  | .boolean b => .boolean b
  | .number x => .number x
  | .text s => .text s
  | .function i _ _ F => .function (hids i) rfl fun k hF _ => self hids F[k].2
termination_by a
decreasing_by
  have hmem := List.sizeOf_lt_of_mem (List.getElem_mem hF)
  have hsnd : sizeOf F[k].2 < sizeOf F[k] := by
    cases F[k]
    simp +arith
  simp only [function.sizeOf_spec]
  omega

theorem isTruthy (h : a.Alike ids b) : a.isTruthy = b.isTruthy := by
  cases h <;> rfl

theorem isNullish (h : a.Alike ids b) : a.isNullish = b.isNullish := by
  cases h <;> rfl

theorem typeName (h : a.Alike ids b) : a.typeName = b.typeName := by
  cases h <;> rfl

theorem toNumber (h : a.Alike ids b) : a.toNumber = b.toNumber := by
  cases h <;> rfl

theorem toText (h : a.Alike ids b) : a.toText = b.toText := by
  cases h <;> rfl

theorem compareValues? (h : a.Alike ids b) (h' : c.Alike ids d) :
    Script.compareValues? a c = Script.compareValues? b d := by
  cases h <;> cases h' <;> rfl

theorem addValues (h : a.Alike ids b) (h' : c.Alike ids d) :
    Script.addValues a c = Script.addValues b d := by
  cases h <;> cases h' <;> rfl

theorem memberOf (property : String) (h : a.Alike ids b) :
    Script.memberOf a property = Script.memberOf b property := by
  cases h <;> rfl

end Value.Alike

/-! ### Arguments -/

section

variable {ids : Nat → Nat → Prop} {xs ys : List Value}

theorem map_eq_of_alike {β : Type} {f : Value → β} (hf : ∀ {a b : Value}, a.Alike ids b → f a = f b)
    (h : List.Forall₂ (Value.Alike ids) xs ys) : xs.map f = ys.map f := by
  refine List.forall₂_eq_eq_eq ▸ ?_
  rw [List.forall₂_map_left_iff, List.forall₂_map_right_iff]
  exact h.imp fun _ _ hab => hf hab

theorem argument_eq_of_alike {β : Type} {f : Value → β} (hf : ∀ {a b : Value}, a.Alike ids b → f a = f b)
    (h : List.Forall₂ (Value.Alike ids) xs ys) (index : Nat) : xs[index]?.map f = ys[index]?.map f := by
  rw [← List.getElem?_map, ← List.getElem?_map, map_eq_of_alike hf h]

theorem extreme_eq_of_alike (wins : Double → Double → Bool) (start : Double)
    (h : List.Forall₂ (Value.Alike ids) xs ys) : extreme wins start xs = extreme wins start ys := by
  unfold extreme
  induction h generalizing start with
  | nil => rfl
  | cons hab _ ih =>
    rw [List.foldl_cons, List.foldl_cons, hab.toNumber]
    exact ih _

theorem applyBuiltin?_eq_of_alike (name : String) (h : List.Forall₂ (Value.Alike ids) xs ys) :
    applyBuiltin? name xs = applyBuiltin? name ys := by
  have hnumber (index : Nat) : numberArgument xs index = numberArgument ys index := by
    rw [numberArgument, argument_eq_of_alike Value.Alike.toNumber h, numberArgument]
  have htext (index : Nat) : textArgument xs index = textArgument ys index := by
    rw [textArgument, argument_eq_of_alike Value.Alike.toText h, textArgument]
  have hradix := argument_eq_of_alike (f := fun r => r.toNumber.toNat32)
    (fun hab => congrArg _ hab.toNumber) h 1
  unfold applyBuiltin?
  simp only [hnumber, htext, hradix, fun wins start => extreme_eq_of_alike wins start h]

theorem applyMethod_eq_of_alike (name : String) {a b : Value} (hab : a.Alike ids b)
    (h : List.Forall₂ (Value.Alike ids) xs ys) : applyMethod a name xs = applyMethod b name ys := by
  have hplaces : fixedPlacesArgument xs = fixedPlacesArgument ys := by
    rw [fixedPlacesArgument, numberArgument, argument_eq_of_alike Value.Alike.toNumber h,
      fixedPlacesArgument, numberArgument]
  cases hab with
  | function =>
    by_cases hname : name = "toString"
    · subst hname
      rfl
    · simp [applyMethod, Value.typeName]
  | _ => simp only [applyMethod, hplaces]

end

/-! ### Results -/

/-- A value that is no function is like itself. -/
theorem Value.Made.alike {ids : Nat → Nat → Prop} {P : String → Prop} {v : Value} (h : v.Made P) :
    v.Alike ids v := by
  cases h with
  | undefined => exact .undefined
  | null => exact .null
  | boolean b => exact .boolean b
  | number x => exact .number x
  | text => exact .text _

/-- Operations with one result on both sides that is no function. -/
theorem ResultMatch.of_made {ids : Nat → Nat → Prop} {P : String → Prop}
    {r r' : Except RuntimeFault Value} (heq : r = r') (h : ∀ {v}, r' = .ok v → v.Made P) :
    ResultMatch (Value.Alike ids) r r' := by
  subst heq
  cases r with
  | ok v => exact .ok (h rfl).alike
  | error fault => exact .error fault

/-! ### Identities that correspond one to one -/

section

variable {ids : Nat → Nat → Prop}
variable (hids : ∀ {i j i' j'}, ids i j → ids i' j' → (i = i' ↔ j = j'))
include hids

theorem Value.Alike.strictEqual {a b c d : Value} (h : a.Alike ids b) (h' : c.Alike ids d) :
    a.strictEqual c = b.strictEqual d := by
  cases h with
  | function hid =>
    cases h' with
    | function hid' => simp only [Value.strictEqual, Bool.beq_eq_decide_eq, hids hid hid']
    | _ => rfl
  | _ => cases h' <;> rfl

theorem Value.Alike.looseEqual {a b c d : Value} (h : a.Alike ids b) (h' : c.Alike ids d) :
    a.looseEqual c = b.looseEqual d := by
  cases h with
  | function hid =>
    cases h' with
    | function hid' =>
      simp only [Value.looseEqual, Value.isNullish, Bool.beq_eq_decide_eq, hids hid hid']
    | _ => rfl
  | _ => cases h' <;> rfl

theorem applyBinary_eq_of_alike (operator : BinaryOperator) {a b c d : Value} (h : a.Alike ids b)
    (h' : c.Alike ids d) : applyBinary operator a c = applyBinary operator b d := by
  cases operator with
  | add => exact h.addValues h'
  | _ =>
    simp only [applyBinary, h.toNumber, h'.toNumber, h.strictEqual hids h', h.looseEqual hids h',
      h.compareValues? h']

/-- Operators, functions and methods respect likeness. -/
theorem Value.Alike.values : ValueMatch (fun _ => True) (fun _ => True) (Value.Alike ids) where
  undefined := .undefined
  null := .null
  boolean := .boolean
  number := .number
  literal {s} _ := .text s
  kind v := .text v.typeName
  isTruthy h := h.isTruthy
  isNullish h := h.isNullish
  typeName h := h.typeName
  toNumber h := h.toNumber
  binary operator _ _ _ _ h h' :=
    .of_made (applyBinary_eq_of_alike hids operator h h') made_of_applyBinary
  builtin name xs ys h := by
    rw [applyBuiltin?_eq_of_alike name h]
    cases hresult : applyBuiltin? name ys with
    | none => exact .none
    | some v => exact .some (made_of_applyBuiltin? hresult).alike
  method name _ _ _ _ hab h :=
    .of_made (applyMethod_eq_of_alike name hab h) made_of_applyMethod
  member property _ _ hab := .of_made (hab.memberOf property) made_of_memberOf
  function {i parameters body captured v} h := by
    cases h with
    | function hid hnames hvalues =>
      exact ⟨_, _, rfl, frameMatch_iff.2 ⟨hnames, hvalues⟩, .all⟩

end

end SequenceNotation.Script
