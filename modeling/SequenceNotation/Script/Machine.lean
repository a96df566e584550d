import SequenceNotation.Script.Value

/-!
# The machine that runs scripts

Its state holds the budget, what has been spent of it, the nesting of the evaluation and the variables.
A name means a variable of the innermost frame or else a global one.  The state of a failed run remains.
-/

namespace SequenceNotation.Script

/-- The deepest chain of nested calls. -/
def maxCallDepth : Nat := 64

/-- The deepest nesting of expressions and statements, across calls. -/
def maxDepth : Nat := 512

/-- The number of steps from one look at the clock to the next. -/
def clockInterval : Nat := 256

/-- The steps granted to a run unless told otherwise. -/
def defaultFuel : Nat := 1000000

/-- The limits of a run.  Its duration is no part of its meaning: every run outlasts a limit of zero
milliseconds, and none outlasts another limit. -/
structure Budget where
  milliseconds : Nat
  fuel : Nat := defaultFuel
  deriving DecidableEq

def Budget.hasExpired (budget : Budget) : Bool :=
  budget.milliseconds = 0

/-- The state of a run.  The frames of the calls stand innermost first; `created` counts functions. -/
structure Machine where
  budget : Budget
  spent : Nat := 0
  depth : Nat := 0
  globals : Frame := []
  calls : List Frame := []
  created : Nat := 0

/-- A state that holds a machine.  What a state notes beside the machine has no influence on it. -/
class Host (σ : Type) where
  machine : σ → Machine
  change : (Machine → Machine) → σ → σ
  machine_change : ∀ (f : Machine → Machine) (s : σ), machine (change f s) = f (machine s)

instance : Host Machine where
  machine m := m
  change f m := f m
  machine_change _ _ := rfl

/-- A computation that moves the machine of a host on and ends with a result or a fault. -/
abbrev RunOn (σ α : Type) := ExceptT Fault (StateM σ) α

/-- A computation on the bare machine. -/
abbrev Run (α : Type) := RunOn Machine α

/-- How a computation ends from a state, and the state it leaves; that of a failed run remains. -/
def RunOn.outcome {σ α : Type} (run : RunOn σ α) (s : σ) : Except Fault α × σ :=
  (ExceptT.run run).run s

namespace Machine

/-- The value of a variable: of the innermost call, else global. -/
def lookup? (m : Machine) (name : String) : Option Value :=
  match m.calls with
  | [] => m.globals.get? name
  | frame :: _ => (frame.get? name).or (m.globals.get? name)

/-- Declares a variable in the current frame. -/
def declare (m : Machine) (name : String) (value : Value) : Machine :=
  match m.calls with
  | [] => { m with globals := m.globals.set name value }
  | frame :: outer => { m with calls := frame.set name value :: outer }

/-- Assigns to an existing variable, or creates it in the current frame. -/
def assign (m : Machine) (name : String) (value : Value) : Machine :=
  match m.calls with
  | [] => { m with globals := m.globals.set name value }
  | frame :: outer =>
    if (frame.get? name).isNone && (m.globals.get? name).isSome then
      { m with globals := m.globals.set name value }
    else
      { m with calls := frame.set name value :: outer }

/-- The variables that a new function captures: those of the current call. -/
def captured (m : Machine) : Frame :=
  m.calls.headD []

/-- A global variable, undefined if there is none of the name. -/
def global (m : Machine) (name : String) : Value :=
  (m.globals.get? name).getD .undefined

end Machine

namespace Run

variable {σ α : Type} [Host σ]

/-- The machine as it stands. -/
def machine : RunOn σ Machine := do
  return Host.machine (← get)

/-- Moves the machine on. -/
def change (f : Machine → Machine) : RunOn σ Unit :=
  modify (Host.change f)

/-- Fails for the values at hand. -/
def fail (fault : RuntimeFault) : RunOn σ α :=
  throw (.runtime fault)

/-- The outcome of a pure operation. -/
def lift : Except RuntimeFault α → RunOn σ α
  | .ok a => pure a
  | .error fault => fail fault

/-- Spends one step. -/
def tick : RunOn σ Unit := do
  change fun m => { m with spent := m.spent + 1 }
  let m ← machine
  if m.budget.fuel < m.spent then
    throw (.fuelExhausted m.budget.fuel)
  else if m.spent % clockInterval = 0 ∧ m.budget.hasExpired then
    throw (.timeout m.budget.milliseconds)

/-- The number of steps that can still be spent. -/
def stepsLeft : RunOn σ Nat := do
  let m ← machine
  return m.budget.fuel - m.spent

/-- The fault of a run that has spent all its steps. -/
def exhausted : RunOn σ α := do
  throw (.fuelExhausted (← machine).budget.fuel)

/-- Runs one level deeper and comes back also when that fails. -/
def deeper (run : RunOn σ α) : RunOn σ α :=
  ExceptT.mk fun s =>
    if maxDepth ≤ (Host.machine s).depth then (.error (.recursionLimit maxDepth), s)
    else
      let (result, after) :=
        ExceptT.run run (Host.change (fun m => { m with depth := m.depth + 1 }) s)
      (result, Host.change (fun m => { m with depth := m.depth - 1 }) after)

/-- Runs with a new innermost frame and drops it also when that fails. -/
def inFrame (frame : Frame) (run : RunOn σ α) : RunOn σ α :=
  ExceptT.mk fun s =>
    if maxCallDepth ≤ (Host.machine s).calls.length then
      (.error (.recursionLimit maxCallDepth), s)
    else
      let (result, after) :=
        ExceptT.run run (Host.change (fun m => { m with calls := frame :: m.calls }) s)
      (result, Host.change (fun m => { m with calls := m.calls.tail }) after)

/-- The value of a variable, if there is one of the name. -/
def lookup? (name : String) : RunOn σ (Option Value) := do
  return (← machine).lookup? name

/-- Assigns to an existing variable, or creates it in the current frame. -/
def assign (name : String) (value : Value) : RunOn σ Unit :=
  change (·.assign name value)

/-- Declares a variable in the current frame. -/
def declare (name : String) (value : Value) : RunOn σ Unit :=
  change (·.declare name value)

/-- The value of a name, among which are two constants. -/
def read (name : String) : RunOn σ Value := do
  match ← lookup? name with
  | some value => return value
  | none =>
    if name = "Infinity" then return .number Number.Double.posInfinity
    else if name = "NaN" then return .number .nan
    else fail (.notDefined name)

/-- A new function value that captures the variables of the current call. -/
def close (parameters : List String) (body : FunctionBody) : RunOn σ Value := do
  let m ← machine
  change fun m => { m with created := m.created + 1 }
  return .function m.created parameters body m.captured

end Run

end SequenceNotation.Script
