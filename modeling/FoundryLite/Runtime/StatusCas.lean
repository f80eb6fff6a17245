import Mathlib.Logic.Basic

/-!
# Conditional updates of a status

Every state machine of the runtime changes its rows by one conditional `UPDATE`: the row must be in
one of the statuses a transition starts from, and meet the conditions of the caller. A row that does
not is left alone, and the caller is told so.

The statement reads the row it writes, so what it decides on is the row as it is at that moment.
Nothing that the caller read before is decided on again unless it is among the conditions.
-/

namespace FoundryLite.Runtime

/-- Allowed current statuses and the single next status for a CAS update. -/
structure StatusTransition (S : Type) where
  fromStatuses : List S
  toStatus : S
  deriving DecidableEq

variable {S R : Type} [DecidableEq S]

/-- `cas_status_update` of the row with this status: the row as updated, or nothing when the update
does not apply to it. -/
def casStatusUpdate (transition : StatusTransition S) (status : S) (conditions : Bool)
    (values : S → R) : Option R :=
  if status ∈ transition.fromStatuses ∧ conditions = true then some (values transition.toStatus)
  else none

theorem casStatusUpdate_eq_some_iff {transition : StatusTransition S} {status : S}
    {conditions : Bool} {values : S → R} {row : R} :
    casStatusUpdate transition status conditions values = some row ↔
      status ∈ transition.fromStatuses ∧ conditions = true ∧ values transition.toStatus = row := by
  rw [casStatusUpdate, Option.ite_none_right_eq_some, and_assoc, Option.some.injEq]

end FoundryLite.Runtime
