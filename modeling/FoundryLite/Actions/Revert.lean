import FoundryLite.Actions.Commit
import Mathlib.Data.List.Sort

/-!
# Reverting an action run

A run whose definition allows it can be reverted: the edits it logged are checked to be the latest
ones of their objects, and their inverses are applied in reverse order. The inverse is computed from
the evidence stored with each edit, not from the plan.

The checks look at an object or a link through the row filed under the index version `"active"`:
its version must be the one the edit left, and its deleted flag (or, for a link, its visibility)
must be the one the edit produced.

## Main results

* `restoreOverlay_update`: restoring the prior values undoes an update of the edit overlay.
-/

namespace FoundryLite.Actions

open ObjectStore

/-! ### The edits of a run -/

/-- The order of the edit log: by time, then by id. -/
def logOrder (a b : ObjectEdit) : Prop :=
  toLex (a.createdAt, a.id) ≤ toLex (b.createdAt, b.id)

instance : DecidableRel logOrder := fun a b =>
  inferInstanceAs (Decidable (toLex (a.createdAt, a.id) ≤ toLex (b.createdAt, b.id)))

/-- The logged edits of a run, earliest first. -/
def objectEditsForRun (s : Store) (tenantId actionRunId : String) : List ObjectEdit :=
  (s.edits.filter fun edit => edit.tenantId = tenantId && edit.actionRunId = actionRunId)
    |>.insertionSort logOrder

/-- The latest edit of an object, by any run. -/
def latestObjectEdit (s : Store) (tenantId : String) (objectType : ObjectTypeId)
    (objectId : String) : Option ObjectEdit :=
  ((s.edits.filter fun edit => edit.tenantId = tenantId && edit.objectType = objectType &&
    edit.objectId = objectId).insertionSort fun a b => logOrder b a).head?

/-! ### Checks -/

section

variable (ctx : RequestContext) (s : Store)

def policyBlocker (run : ActionRun) (log : ActionLogEntry) (edits : List ObjectEdit) :
    Option String :=
  if run.status ≠ .succeeded ∨ log.status ≠ .succeeded then some "action_run_not_succeeded"
  else if run.actorUserId ≠ ctx.actorUserId then some "only_original_actor_may_revert"
  else if ¬ log.revertAllowed then some "revert_not_enabled_by_action_definition"
  else if log.revertStatus ≠ .eligible ∨ log.revertedByRunId.isSome then
    some "action_run_already_reverted"
  else if edits = [] then some "action_run_has_no_reversible_edits"
  else none

/-- The row under `"active"` must be at the version the edit left and deleted as the edit left
it. -/
def objectStateBlocker (edit : ObjectEdit) (committedObjectVersion : ℕ+)
    (shouldBeDeleted : Bool) : Option String :=
  match s.objectTargetForRevert ctx.tenantId edit.objectType edit.objectId with
  | none => some "affected_object_version_drifted"
  | some row =>
    if row.objectVersion ≠ committedObjectVersion then some "affected_object_version_drifted"
    else if row.deleted ≠ shouldBeDeleted then some "affected_object_state_drifted"
    else none

def linkStateBlocker (linkType : LinkTypeRow) (fromObjectId toObjectId : String)
    (expectedActive : Bool) : Option String :=
  if fromObjectId = "" ∨ toObjectId = "" then some "link_revert_evidence_invalid"
  else
    let link := s.objectLinkForRevert ⟨ctx.tenantId, linkType, fromObjectId, toObjectId⟩
    if link.any ObjectLink.isVisible = expectedActive then none
    else some "affected_link_state_drifted"

def editBlocker (run : ActionRun) (edit : ObjectEdit) : Option String :=
  let latest := latestObjectEdit s ctx.tenantId edit.objectType edit.objectId
  if latest.all fun latest => latest.actionRunId ≠ run.id then
    some "later_edit_touched_affected_object"
  else match edit.revertPayload with
    | none => some "revert_evidence_missing"
    | some (.setProperty version _) => objectStateBlocker ctx s edit version false
    | some (.createObject version) => objectStateBlocker ctx s edit version false
    | some (.deleteObject version) => objectStateBlocker ctx s edit version true
    | some (.createLink linkType fromObjectId toObjectId expectedActive) =>
      linkStateBlocker ctx s linkType fromObjectId toObjectId expectedActive
    | some (.deleteLink linkType fromObjectId toObjectId expectedActive) =>
      linkStateBlocker ctx s linkType fromObjectId toObjectId expectedActive

/-- Why a run may not be reverted, if anything. -/
def revertBlocker (run : ActionRun) (log : ActionLogEntry) : Option String :=
  let edits := objectEditsForRun s ctx.tenantId run.id
  (policyBlocker ctx run log edits).or (edits.findSome? (editBlocker ctx s run))

/-- The run and its log entry, where both are stored. -/
def revertSource (runId : String) : Option (ActionRun × ActionLogEntry) := do
  let run ← s.actionRuns.find? fun run => run.tenantId = ctx.tenantId && run.id = runId
  let log ← s.actionLogs.find? fun log => log.tenantId = ctx.tenantId && log.actionRunId = runId
  return (run, log)

variable {ctx s} in
theorem id_of_revertSource {runId : String} {source : ActionRun × ActionLogEntry}
    (h : revertSource ctx s runId = some source) : source.1.id = runId := by
  simp only [revertSource, bind, pure, Option.bind_eq_some_iff, Option.some.injEq] at h
  obtain ⟨run, hrun, log, -, rfl⟩ := h
  have hfound := List.find?_some hrun
  simp only [Bool.and_eq_true, decide_eq_true_eq] at hfound
  exact hfound.2

def isRevertEligible (runId : String) : Bool :=
  (revertSource ctx s runId).any fun source => (revertBlocker ctx s source.1 source.2).isNone

end

/-! ### Inverse mutations -/

section

variable (env : Environment) (ctx : RequestContext) (ontology : Ontology) (revertRunId : String)

def requiredTarget (edit : ObjectEdit) : Tx ObjectRecord := do
  let store ← get
  demandSome (store.objectTargetForRevert ctx.tenantId edit.objectType edit.objectId)
    (conflictDetected "Action revert target no longer exists")

/-- Bind each key to what it was bound to before, or unbind it. -/
def restoreOverlay (editProperties : PropertyMap) (previous : Dict String PriorValue) :
    PropertyMap :=
  previous.entries.foldl (fun overlay entry =>
    if entry.2.wasPresent then overlay.insert entry.1 entry.2.value else overlay.erase entry.1)
    editProperties

def restoreProperties (edit : ObjectEdit) (previous : Dict String PriorValue) : Tx Unit := do
  let record ← requiredTarget ctx edit
  let editProperties := restoreOverlay record.editProperties previous
  let merged := mergeProperties (ontology.properties record.objectType) record.baseProperties
    editProperties
  let updatedAt ← now env
  let updated ← updateObjectTarget
    { objectRecordId := record.id
      tenantId := ctx.tenantId
      expectedObjectVersion := record.objectVersion
      editProperties
      properties := merged
      nextObjectVersion := record.objectVersion + 1
      updatedAt }
  demand updated (conflictDetected "object changed during Action revert")

def deleteCreatedObject (edit : ObjectEdit) (committedObjectVersion : ℕ+) : Tx Unit := do
  let record ← requiredTarget ctx edit
  let updatedAt ← now env
  let deleted ← softDeleteObjectWrite
    { objectRecordId := record.id
      tenantId := ctx.tenantId
      expectedObjectVersion := committedObjectVersion
      deletionReason := s!"revert:{revertRunId}"
      updatedAt }
  demand deleted (conflictDetected "created object changed before Action revert")

def restoreDeletedObject (edit : ObjectEdit) (committedObjectVersion : ℕ+) : Tx Unit := do
  let record ← requiredTarget ctx edit
  let updatedAt ← now env
  let restored ← restoreObjectWrite
    { objectRecordId := record.id
      tenantId := ctx.tenantId
      expectedObjectVersion := committedObjectVersion
      updatedAt }
  demand restored (conflictDetected "deleted object changed before Action revert")

/-- Refuse an empty text in the stored evidence. -/
def demandText (field value : String) : Tx Unit :=
  demand (value ≠ "")
    (invariantViolation "Action revert text evidence is invalid" [("field", .str field)])

/-- The inverse of a link creation: hide the link. -/
def unlinkCreated (linkType : LinkTypeRow) (fromObjectId toObjectId : String) : Tx Unit := do
  demandText "fromObjectId" fromObjectId
  demandText "toObjectId" toObjectId
  let updatedAt ← now env
  let deleted ← softDeleteObjectLinkWrite
    { tenantId := ctx.tenantId
      linkType
      fromObjectId
      toObjectId
      deletionReason := s!"revert:{revertRunId}"
      updatedAt }
  demand deleted (conflictDetected "link changed before Action revert")

/-- The inverse of a link deletion: create the link. -/
def relinkDeleted (linkType : LinkTypeRow) (fromObjectId toObjectId : String) : Tx Unit := do
  let linkRecordId ← newId env "lnk"
  demandText "fromObjectId" fromObjectId
  demandText "toObjectId" toObjectId
  let updatedAt ← now env
  createObjectLinkWrite
    { linkRecordId
      tenantId := ctx.tenantId
      linkType
      fromObjectId
      toObjectId
      updatedAt }

/-- The inverse operation that the evidence of an edit describes. -/
def invertEdit (edit : ObjectEdit) : RevertPayload → Tx Unit
  | .setProperty _ previous => restoreProperties env ctx ontology edit previous
  | .createObject version => deleteCreatedObject env ctx revertRunId edit version
  | .deleteObject version => restoreDeletedObject env ctx edit version
  | .createLink linkType fromObjectId toObjectId _ =>
    unlinkCreated env ctx revertRunId linkType fromObjectId toObjectId
  | .deleteLink linkType fromObjectId toObjectId _ =>
    relinkDeleted env ctx linkType fromObjectId toObjectId

def recordInverseEdit (original : ObjectEdit) : Tx CommittedEdit := do
  let editId ← recordEdit env ctx revertRunId original.objectType original.objectId
    (.revert original.editType) (Dict.ofList [("revertOfEditId", .str original.id)]) ∅
    s!"{revertRunId}:{original.id}" none
  return ⟨editId, original.objectType.apiName, original.objectId, .revert original.editType⟩

/-- Apply the inverse of one logged edit and log that, without evidence of its own. -/
def applyInverseEdit (edit : ObjectEdit) : Tx CommittedEdit := do
  let payload ← demandSome edit.revertPayload
    (invariantViolation "Action edit is missing structured revert evidence")
  invertEdit env ctx ontology revertRunId edit payload
  recordInverseEdit env ctx revertRunId edit

/-- Apply the inverses of the edits of a run, latest first. -/
def revertEdits (actionRunId : String) : Tx (List CommittedEdit) := do
  let store ← get
  (objectEditsForRun store ctx.tenantId actionRunId).reverse.mapM
    (applyInverseEdit env ctx ontology revertRunId)

end

/-! ### The inverse of an overlay update -/

theorem get?_restoreOverlay (overlay : PropertyMap) (previous : Dict String PriorValue)
    (key : String) : (restoreOverlay overlay previous).get? key
      = match previous.get? key with
        | some prior => if prior.wasPresent then some prior.value else none
        | none => overlay.get? key := by
  have hnodup : (previous.entries.map Prod.fst).Nodup := by
    rw [List.nodup_iff_pairwise_ne, List.pairwise_map]
    exact previous.sorted.imp fun h => h.ne
  rw [restoreOverlay, show previous.get? key = previous.entries.lookup key from rfl]
  generalize previous.entries = entries at hnodup
  induction entries generalizing overlay with
  | nil => rfl
  | cons entry entries ih =>
    obtain ⟨hnotin, hnodup⟩ := List.nodup_cons.mp hnodup
    rw [List.foldl_cons, ih _ hnodup, Dict.lookup_cons_ite]
    by_cases hkey : key = entry.1
    · -- no later entry binds the key again
      have hnone : entries.lookup key = none := by
        rw [List.lookup_eq_none_iff]
        intro e he
        rw [bne_iff_ne, hkey]
        exact fun h => hnotin (List.mem_map.mpr ⟨e, he, h.symm⟩)
      rw [hnone, if_pos hkey]
      cases hpresent : entry.2.wasPresent <;>
        simp [hpresent, Dict.get?_insert, Dict.get?_erase, hkey]
    · rw [if_neg hkey]
      cases hlookup : entries.lookup key with
      | some prior => rfl
      | none =>
        cases hpresent : entry.2.wasPresent <;>
          simp [Dict.get?_insert, Dict.get?_erase, hkey]

theorem get?_priorValues (record : ObjectRecord) (patch : PropertyMap) (key : String) :
    (priorValues record patch).get? key
      = if key ∈ patch.keys then
          some ⟨(record.editProperties.get? key).isSome,
            (record.editProperties.get? key).getD .null⟩
        else none := by
  rw [priorValues, Dict.get?_ofList]
  induction patch.keys with
  | nil => rfl
  | cons k keys ih =>
    rw [List.map_cons, Dict.lookup_cons_ite, ih]
    by_cases hkey : key = k
    · simp [hkey]
    · simp [hkey]

/-- **Restoring the prior values undoes the update they were taken for.** -/
theorem restoreOverlay_update (record : ObjectRecord) (patch : PropertyMap) :
    restoreOverlay (record.editProperties.update patch) (priorValues record patch)
      = record.editProperties := by
  refine Dict.ext_get? fun key => ?_
  rw [get?_restoreOverlay, get?_priorValues, Dict.get?_update]
  cases hpatch : patch.get? key with
  | none => simp [Dict.mem_keys_iff, hpatch]
  | some new =>
    cases hedit : record.editProperties.get? key with
    | none => simp [Dict.mem_keys_iff, hpatch]
    | some old => simp [Dict.mem_keys_iff, hpatch]

end FoundryLite.Actions
