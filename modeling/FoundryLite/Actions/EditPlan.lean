import FoundryLite.ObjectStore.Reads
import Mathlib.Data.Prod.Lex

/-!
# Edit plans

An action never writes to the store directly. Its rules are first resolved into a plan, the whole
set of edits one submission will commit, and the plan is checked before anything is written: its
operation keys are distinct, no object is modified or deleted twice, and no link is created to an
object that the plan deletes. A plan may well create an object and also modify it.

The versions in a plan are the versions of the objects when they were read, at some earlier time.

## Main results

* `ValidEditPlan.nodup_targets`: no object is modified or deleted by two edits of a checked plan.
-/

namespace FoundryLite.Actions

open ObjectStore

structure ObjectCreate where
  operationKey : String
  objectType : String
  /-- `None` is `null`. -/
  primaryKey : Json
  properties : PropertyMap
  deriving DecidableEq

structure ObjectModify where
  operationKey : String
  objectType : String
  objectId : String
  expectedVersion : ℕ
  patch : PropertyMap
  shouldCreateIfAbsent : Bool := false
  deriving DecidableEq

structure ObjectDelete where
  operationKey : String
  objectType : String
  objectId : String
  expectedVersion : ℕ
  deriving DecidableEq

/-- A link to create or to delete. -/
structure PlannedLink where
  operationKey : String
  linkType : String
  sourceObjectId : String
  targetObjectId : String
  deriving DecidableEq

abbrev LinkCreate := PlannedLink

abbrev LinkDelete := PlannedLink

structure EditPlan where
  objectsToCreate : List ObjectCreate := []
  objectsToModify : List ObjectModify := []
  objectsToDelete : List ObjectDelete := []
  linksToCreate : List LinkCreate := []
  linksToDelete : List LinkDelete := []

/-! ### Structural checks -/

namespace EditPlan

variable (plan : EditPlan)

def isEmpty : Bool :=
  plan.objectsToCreate.isEmpty && plan.objectsToModify.isEmpty && plan.objectsToDelete.isEmpty &&
    plan.linksToCreate.isEmpty && plan.linksToDelete.isEmpty

def allOperationKeys : List String :=
  plan.objectsToCreate.map (·.operationKey) ++ plan.objectsToModify.map (·.operationKey) ++
    plan.objectsToDelete.map (·.operationKey) ++ plan.linksToCreate.map (·.operationKey) ++
    plan.linksToDelete.map (·.operationKey)

/-- The type and id of each object the plan modifies. -/
def modified : List (String × String) := plan.objectsToModify.map fun e => (e.objectType, e.objectId)

/-- The type and id of each object the plan deletes. -/
def deleted : List (String × String) := plan.objectsToDelete.map fun e => (e.objectType, e.objectId)

end EditPlan

/-- The distinct pairs in increasing order, as error details show them. -/
def sortedPairs (pairs : List (String × String)) : Json :=
  .arr ((Dict.sortedSet (pairs.map toLex)).map fun p =>
    .arr [.str (ofLex p).1, .str (ofLex p).2])

def validateUniqueOperationKeys (plan : EditPlan) : Checked Unit :=
  let keys := plan.allOperationKeys
  rejectIf (¬ keys.Nodup) "edit plan has duplicate operation keys" [("count", .int keys.length)]

def validateObjectIdsTouchedOnce (plan : EditPlan) : Checked Unit := do
  let conflict := plan.modified.filter (· ∈ plan.deleted)
  rejectIf (conflict ≠ []) "edit plan modifies and deletes the same object"
    [("objects", sortedPairs conflict)]
  rejectIf (¬ plan.modified.Nodup) "edit plan modifies the same object twice"
    [("objects", sortedPairs plan.modified)]
  rejectIf (¬ plan.deleted.Nodup) "edit plan deletes the same object twice"
    [("objects", sortedPairs plan.deleted)]

def validateLinksReferenceLiveObjects (plan : EditPlan) : Checked Unit :=
  let deleted := plan.objectsToDelete.map (·.objectId)
  plan.linksToCreate.forM fun link =>
    let dangling := [link.sourceObjectId, link.targetObjectId].filter (· ∈ deleted)
    rejectIf (dangling ≠ []) "edit plan creates a link to an object it deletes"
      [("linkType", .str link.linkType),
        ("objectIds", .arr ((Dict.sortedSet dangling).map .str))]

/-- Structural checks on a fully built plan, independent of the store. -/
def validateEditPlan (plan : EditPlan) : Checked Unit := do
  rejectIf plan.isEmpty "edit plan is empty"
  validateUniqueOperationKeys plan
  validateObjectIdsTouchedOnce plan
  validateLinksReferenceLiveObjects plan

/-- A plan that the structural checks accept. -/
structure ValidEditPlan extends EditPlan where
  isValid : validateEditPlan toEditPlan = .ok ()

/-- **No object is modified or deleted by two edits of a checked plan.** -/
theorem ValidEditPlan.nodup_targets (plan : ValidEditPlan) :
    (plan.modified ++ plan.deleted).Nodup := by
  have hvalid := plan.isValid
  simp only [validateEditPlan, Except.bind_eq_ok_iff] at hvalid
  obtain ⟨_, _, _, _, _, htouched, _⟩ := hvalid
  simp only [validateObjectIdsTouchedOnce, Except.bind_eq_ok_iff, rejectIf_eq_ok_iff,
    not_not] at htouched
  obtain ⟨_, hconflict, _, hmodified, hdeleted⟩ := htouched
  rw [List.nodup_append]
  refine ⟨hmodified, hdeleted, ?_⟩
  rintro a ha b hb rfl
  simpa [hb] using List.filter_eq_nil_iff.mp hconflict a ha

/-! ### Edits in commit order -/

/-- One edit of a plan. -/
inductive PlannedEdit where
  | createObject (create : ObjectCreate)
  | modifyObject (modify : ObjectModify)
  | deleteObject (delete : ObjectDelete)
  | createLink (link : LinkCreate)
  | deleteLink (link : LinkDelete)
  deriving DecidableEq

/-- The edits of a plan in the order in which a commit applies them. -/
def EditPlan.plannedEdits (plan : EditPlan) : List PlannedEdit :=
  plan.objectsToCreate.map .createObject ++ (plan.objectsToModify.map .modifyObject ++
    (plan.objectsToDelete.map .deleteObject ++ (plan.linksToCreate.map .createLink ++
      plan.linksToDelete.map .deleteLink)))

/-- The existing object an edit is meant for, with the version its plan recorded. -/
def PlannedEdit.target : PlannedEdit → Option ((String × String) × ℕ)
  | .modifyObject modify => some ((modify.objectType, modify.objectId), modify.expectedVersion)
  | .deleteObject delete => some ((delete.objectType, delete.objectId), delete.expectedVersion)
  | .createObject _ | .createLink _ | .deleteLink _ => none

/-- Whether an edit creates the object it is meant for when there is none. -/
def PlannedEdit.shouldCreateIfAbsent : PlannedEdit → Bool
  | .modifyObject modify => modify.shouldCreateIfAbsent
  | .createObject _ | .deleteObject _ | .createLink _ | .deleteLink _ => false

end FoundryLite.Actions
