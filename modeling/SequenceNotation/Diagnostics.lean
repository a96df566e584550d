/-!
# Diagnostics

What is noticed on the way is logged: details for debugging, and warnings.  A computation carries its log
beside its value, and a record of diagnostics keeps the warnings of a log, and the details if it is
verbose.
-/

namespace SequenceNotation

inductive Severity where
  | debug | warning
  deriving DecidableEq, Repr

structure Diagnostic where
  severity : Severity
  message : String
  deriving DecidableEq, Repr

/-- A value with what was noticed while it was computed. -/
structure Logged (α : Type) where
  value : α
  log : List Diagnostic := []

namespace Logged

instance : Monad Logged where
  pure value := { value }
  bind first next :=
    { value := (next first.value).value, log := first.log ++ (next first.value).log }

/-- Logs a detail. -/
def debug (message : String) : Logged Unit :=
  { value := (), log := [{ severity := .debug, message }] }

/-- Logs a warning. -/
def warn (message : String) : Logged Unit :=
  { value := (), log := [{ severity := .warning, message }] }

@[simp] theorem value_pure {α : Type} (a : α) : (pure a : Logged α).value = a :=
  rfl

@[simp] theorem value_bind {α β : Type} (first : Logged α) (next : α → Logged β) :
    (first >>= next).value = (next first.value).value :=
  rfl

end Logged

/-- A record of diagnostics in the order in which they came. -/
structure Diagnostics where
  verbose : Bool
  entries : List Diagnostic := []
  deriving DecidableEq, Repr

namespace Diagnostics

/-- Keeps a diagnostic; details only in a verbose record. -/
def record (diagnostics : Diagnostics) (diagnostic : Diagnostic) : Diagnostics :=
  if diagnostic.severity = .debug ∧ !diagnostics.verbose then diagnostics
  else { diagnostics with entries := diagnostics.entries ++ [diagnostic] }

/-- Keeps the diagnostics of a log. -/
def recordAll (diagnostics : Diagnostics) (log : List Diagnostic) : Diagnostics :=
  log.foldl record diagnostics

/-- The messages of the warnings. -/
def warnings (diagnostics : Diagnostics) : List String :=
  (diagnostics.entries.filter (·.severity = .warning)).map (·.message)

end Diagnostics

end SequenceNotation
