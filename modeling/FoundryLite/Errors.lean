import FoundryLite.Library.Json
import FoundryLite.Library.Fallible

/-!
# Errors of the domain layer

Every rule of the program that can refuse an input refuses it with a classified error: a code, a
message, and details. A rule is modelled as a `Checked` computation, in which an error ends the
computation as an exception does in the source.
-/

namespace FoundryLite

/-- A decoded JSON object, read by key. -/
abbrev Mapping := List (String × Json)

inductive ErrorCode where
  | validationFailed
  | permissionDenied
  | notFound
  | conflictDetected
  | invariantViolation
  /-- Raised by the database itself: a violated constraint, a row that is not there. -/
  | databaseError
  /-- Raised by the standard library: an exception that no rule of the program names. -/
  | libraryError
  deriving DecidableEq

/-- An error of the domain layer. -/
structure FoundryLiteError where
  code : ErrorCode
  message : String
  details : Mapping := []
  deriving DecidableEq

/-- A computation that may be refused. -/
abbrev Checked := Except FoundryLiteError

def conflictDetected (message : String) (details : Mapping := []) : FoundryLiteError :=
  ⟨.conflictDetected, message, details⟩

def permissionDenied (message : String) (details : Mapping := []) : FoundryLiteError :=
  ⟨.permissionDenied, message, details⟩

def notFound (message : String) (details : Mapping := []) : FoundryLiteError :=
  ⟨.notFound, message, details⟩

def invariantViolation (message : String) (details : Mapping := []) : FoundryLiteError :=
  ⟨.invariantViolation, message, details⟩

def databaseError (message : String) : FoundryLiteError := ⟨.databaseError, message, []⟩

def libraryError (message : String) : FoundryLiteError := ⟨.libraryError, message, []⟩

def validationFailed {α : Type} (message : String) (details : Mapping := []) : Checked α :=
  throw ⟨.validationFailed, message, details⟩

@[simp]
theorem validationFailed_eq_ok_iff {α : Type} {message : String} {details : Mapping} {a : α} :
    (validationFailed message details : Checked α) = .ok a ↔ False := by
  simp [validationFailed]

/-- Refuse an input that has a given fault. -/
def rejectIf (fault : Prop) [Decidable fault] (message : String) (details : Mapping := []) :
    Checked Unit :=
  if fault then validationFailed message details else pure ()

@[simp]
theorem rejectIf_eq_ok_iff {fault : Prop} [Decidable fault] {message : String}
    {details : Mapping} {u : Unit} : rejectIf fault message details = .ok u ↔ ¬ fault := by
  rw [rejectIf]
  split_ifs with h <;> simp [h]

theorem rejectIf_eq_error_iff {fault : Prop} [Decidable fault] {message : String}
    {details : Mapping} {e : FoundryLiteError} :
    rejectIf fault message details = .error e ↔ fault ∧ e = ⟨.validationFailed, message, details⟩ := by
  rw [rejectIf]
  split_ifs with h
  · simp [h, validationFailed, throw, throwThe, MonadExceptOf.throw, eq_comm]
  · simp [h, pure, Except.pure]

end FoundryLite
