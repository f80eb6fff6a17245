import FoundryLite.Actions.Revert
import FoundryLite.Library.ReadCommitted
import FoundryLite.Library.Text

/-!
# Revert requests side by side

The same revert, statement by statement. A request opens one transaction, reads the run, its log
entry and its edits, looks for an earlier request under its own idempotency key, checks that the
run may be reverted, records a run of its own, applies the inverse edits and finally claims the log
entry with a compare-and-set. Between any two statements other requests may run, commit or fail.

The tables are rows by key here. The unique index of action runs on idempotency keys is a row of
its own, so that two requests that insert under one key meet at it, and the rows of one link under
all index versions are one row. The edit log is the journal.
-/

namespace FoundryLite.Actions

open ObjectStore ReadCommitted

/-! ### Rows -/

/-- The unique key of an action run that is not its id. -/
structure RunKey where
  tenantId : String
  actionTypeId : String
  actorUserId : String
  idempotencyKey : String
  deriving DecidableEq

structure RunRow extends ActionRun where
  actionTypeId : String
  idempotencyKey : String
  parameters : PropertyMap
  result : Option PropertyMap
  deriving DecidableEq

inductive RowKey where
  | run (id : String)
  | runIdempotency (key : RunKey)
  | log (tenantId actionRunId : String)
  | effectReceipts (tenantId runId : String)
  | object (key : ObjectKey)
  | link (ends : LinkEnds)
  | changeCounter (tenantId : String)
  deriving DecidableEq

/-- What is stored under a key: the id of a run in the unique index, the number of receipts, the
rows of a link for each index version. -/
abbrev RowKey.Row : RowKey → Type
  | .run _ => Option RunRow
  | .runIdempotency _ => Option String
  | .log _ _ => Option ActionLogEntry
  | .effectReceipts _ _ => ℕ
  | .object _ => Option ObjectRecord
  | .link _ => List ObjectLink
  | .changeCounter _ => ℕ

abbrev Rows := Database RowKey RowKey.Row ObjectEdit

abbrev RowWrites := Writes RowKey RowKey.Row ObjectEdit

abbrev RevertProgram := Program RowKey RowKey.Row ObjectEdit FoundryLiteError

namespace Rows

variable (rows : Rows)

def run (id : String) : Option RunRow := rows.row (.run id)

def runByIdempotency (key : RunKey) : Option RunRow := do
  let id ← rows.row (.runIdempotency key)
  rows.run id

def log (tenantId actionRunId : String) : Option ActionLogEntry := rows.row (.log tenantId actionRunId)

def object (key : ObjectKey) : Option ObjectRecord := rows.row (.object key)

def link (ends : LinkEnds) : List ObjectLink := rows.row (.link ends)

/-- The logged edits of a run, earliest first. -/
def editsForRun (tenantId actionRunId : String) : List ObjectEdit :=
  (rows.journal.filter fun edit => edit.tenantId = tenantId && edit.actionRunId = actionRunId)
    |>.insertionSort logOrder

/-- The latest edit of an object, by any run. -/
def latestEdit (tenantId : String) (objectType : ObjectTypeId) (objectId : String) :
    Option ObjectEdit :=
  ((rows.journal.filter fun edit => edit.tenantId = tenantId && edit.objectType = objectType &&
    edit.objectId = objectId).insertionSort fun a b => logOrder b a).head?

end Rows

/-- The text of a status. -/
def statusText : ActionRunStatus → String
  | .received => "received"
  | .externalPending => "external_pending"
  | .queued => "queued"
  | .running => "running"
  | .commitPending => "commit_pending"
  | .cancelling => "cancelling"
  | .cancelled => "cancelled"
  | .succeeded => "succeeded"
  | .failed => "failed"
  | .conflict => "conflict"
  | .retryable => "retryable"
  | .outcomeUnknown => "outcome_unknown"
  | .compensationRequired => "compensation_required"
  | .reconciled => "reconciled"

/-! ### Requests -/

/-- What a request brings with it: who asks under which key, and the ids and the times it will be
given, of which nothing is assumed. -/
structure RevertCall where
  actorUserId : String
  idempotencyKey : String
  revertRunId : String
  editId : ObjectEdit → String
  linkRecordId : ObjectEdit → String
  nowAt : ObjectEdit → String
  completedAt : String

def revertKey (originalRunId idempotencyKey : String) : String :=
  s!"revert:{originalRunId}:{idempotencyKey}"

/-- What a request that was answered before is answered. -/
def revertResponse (row : RunRow) (originalRunId : String) : PropertyMap :=
  (Dict.ofList
    [("actionRunId", .str row.id), ("revertOfActionRunId", .str originalRunId),
      ("status", .str (statusText row.status))]).update (row.result.getD ∅)

section

variable (tenantId runId : String) (ontology : Ontology) (call : RevertCall)

/-- End with an error. -/
def refuse {α : Type} (error : FoundryLiteError) : RevertProgram α := .fail error

/-! ### Checks -/

def readRevertSource : RevertProgram (RunRow × ActionLogEntry × List ObjectEdit) := do
  let run ← .query fun (rows : Rows) => (rows.run runId).filter fun run => run.tenantId = tenantId
  let log ← .query fun (rows : Rows) => rows.log tenantId runId
  match run, log with
  | some run, some log =>
    let edits ← .query fun (rows : Rows) => rows.editsForRun tenantId runId
    return (run, log, edits)
  | _, _ => refuse (notFound "Action run log not found" [("actionRunId", .str runId)])

def runKey (original : RunRow) : RunKey :=
  ⟨tenantId, original.actionTypeId, call.actorUserId, revertKey runId call.idempotencyKey⟩

def existingRevert (original : RunRow) : RevertProgram (Option RunRow) := do
  let existing ← .query fun (rows : Rows) => rows.runByIdempotency (runKey tenantId runId call original)
  if existing.any fun row =>
      row.parameters.get? "revertOfActionRunId" ≠ some (.str runId) then
    refuse (conflictDetected "Action revert idempotency key was reused for a different request")
  else return existing

/-- Why the object of an edit may not be reverted, if anything. -/
def objectStateBlocked (edit : ObjectEdit) (committedObjectVersion : ℕ+) (shouldBeDeleted : Bool) :
    RevertProgram (Option String) := do
  let row ← .query fun (rows : Rows) =>
    rows.object ⟨tenantId, edit.objectType, edit.objectId, activeIndexName⟩
  match row with
  | none => return some "affected_object_version_drifted"
  | some row =>
    if row.objectVersion ≠ committedObjectVersion then
      return some "affected_object_version_drifted"
    else if row.deleted ≠ shouldBeDeleted then return some "affected_object_state_drifted"
    else return none

/-- Why the link of an edit may not be reverted, if anything. -/
def linkStateBlocked (linkType : LinkTypeRow) (fromObjectId toObjectId : String)
    (expectedActive : Bool) : RevertProgram (Option String) := do
  if fromObjectId = "" ∨ toObjectId = "" then return some "link_revert_evidence_invalid"
  else
    let links ← .query fun (rows : Rows) => rows.link ⟨tenantId, linkType, fromObjectId, toObjectId⟩
    let link := links.find? fun link => link.indexVersion = activeIndexName
    if link.any ObjectLink.isVisible = expectedActive then return none
    else return some "affected_link_state_drifted"

def editBlocked (run : RunRow) (edit : ObjectEdit) : RevertProgram (Option String) := do
  let latest ← .query fun (rows : Rows) => rows.latestEdit tenantId edit.objectType edit.objectId
  if latest.all fun latest => latest.actionRunId ≠ run.id then
    return some "later_edit_touched_affected_object"
  else match edit.revertPayload with
    | none => return some "revert_evidence_missing"
    | some (.setProperty version _) => objectStateBlocked tenantId edit version false
    | some (.createObject version) => objectStateBlocked tenantId edit version false
    | some (.deleteObject version) => objectStateBlocked tenantId edit version true
    | some (.createLink linkType fromObjectId toObjectId expectedActive) =>
      linkStateBlocked tenantId linkType fromObjectId toObjectId expectedActive
    | some (.deleteLink linkType fromObjectId toObjectId expectedActive) =>
      linkStateBlocked tenantId linkType fromObjectId toObjectId expectedActive

/-- The first reason among the edits. -/
def firstEditBlocked (run : RunRow) : List ObjectEdit → RevertProgram (Option String)
  | [] => return none
  | edit :: edits => do
    match ← editBlocked tenantId run edit with
    | some reason => return some reason
    | none => firstEditBlocked run edits

def hasPreservedEffects (id : String) : RevertProgram Bool :=
  .query fun (rows : Rows) => rows.row (.effectReceipts tenantId id) ≠ (0 : ℕ)

/-- Why the run may not be reverted, if anything. -/
def runBlocked (run : RunRow) (log : ActionLogEntry) (edits : List ObjectEdit) :
    RevertProgram (Option String) :=
  match policyBlocker ⟨tenantId, call.actorUserId⟩ run.toActionRun log edits with
  | some reason => return some reason
  | none => firstEditBlocked tenantId run edits

def requireEligible (run : RunRow) (log : ActionLogEntry) (edits : List ObjectEdit) :
    RevertProgram Unit := do
  let reason ← runBlocked tenantId call run log edits
  let hasEffects ← hasPreservedEffects tenantId run.id
  match reason with
  | none => return ()
  | some reason =>
    refuse (conflictDetected "Action run is not revertible"
      [("actionRunId", .str run.id), ("isEligible", .bool false), ("reason", .str reason),
        ("editCount", .int edits.length), ("hasPreservedExternalEffects", .bool hasEffects)])

/-! ### Inverse mutations -/

def nextChangeSequence : RevertProgram ℕ :=
  .execute fun (rows : Rows) =>
    let next : ℕ := rows.row (.changeCounter tenantId) + 1
    (next, .put (.changeCounter tenantId) next)

/-- Update the row under a key if it has the given id and passes the guard; say whether it was. -/
def updateObjectRow (key : ObjectKey) (recordId : String) (guard : ObjectRecord → Bool)
    (update : ObjectUpdate) : RevertProgram Bool := do
  let sequence ← nextChangeSequence tenantId
  .execute fun (rows : Rows) =>
    match rows.object key with
    | some row =>
      if row.tenantId = tenantId && row.id = recordId && guard row then
        (true, .put (.object key) (some ((update sequence).apply row)))
      else (false, ∅)
    | none => (false, ∅)

/-- Go on, or end with an error. -/
def proceed (holds : Bool) (error : FoundryLiteError) : RevertProgram Unit :=
  if holds then pure () else .fail error

def targetKey (edit : ObjectEdit) : ObjectKey :=
  ⟨tenantId, edit.objectType, edit.objectId, activeIndexName⟩

def readTarget (edit : ObjectEdit) : RevertProgram ObjectRecord := do
  match ← .query fun (rows : Rows) => rows.object (targetKey tenantId edit) with
  | some record => return record
  | none => refuse (conflictDetected "Action revert target no longer exists")

def restoreObjectProperties (edit : ObjectEdit) (previous : Dict String PriorValue) :
    RevertProgram Unit := do
  let record ← readTarget tenantId edit
  let editProperties := restoreOverlay record.editProperties previous
  let properties := mergeProperties (ontology.properties record.objectType) record.baseProperties
    editProperties
  let updated ← updateObjectRow tenantId (targetKey tenantId edit) record.id
    (fun row => row.objectVersion = record.objectVersion)
    (targetUpdate ⟨record.id, tenantId, record.objectVersion, editProperties, properties,
      record.objectVersion + 1, call.nowAt edit⟩)
  proceed updated (conflictDetected "object changed during Action revert")

def removeCreatedObject (edit : ObjectEdit) (committedObjectVersion : ℕ+) :
    RevertProgram Unit := do
  let record ← readTarget tenantId edit
  let deleted ← updateObjectRow tenantId (targetKey tenantId edit) record.id
    (fun row => row.objectVersion = committedObjectVersion)
    (softDeletion ⟨record.id, tenantId, committedObjectVersion, s!"revert:{call.revertRunId}",
      call.nowAt edit⟩)
  proceed deleted (conflictDetected "created object changed before Action revert")

def bringBackDeletedObject (edit : ObjectEdit) (committedObjectVersion : ℕ+) :
    RevertProgram Unit := do
  let record ← readTarget tenantId edit
  let restored ← updateObjectRow tenantId (targetKey tenantId edit) record.id
    (fun row => row.objectVersion = committedObjectVersion && row.deleted)
    (restoration ⟨record.id, tenantId, committedObjectVersion, call.nowAt edit⟩)
  proceed restored (conflictDetected "deleted object changed before Action revert")

/-- Refuse an empty text in the stored evidence. -/
def proceedWithText (field value : String) : RevertProgram Unit :=
  proceed (value ≠ "")
    (invariantViolation "Action revert text evidence is invalid" [("field", .str field)])

/-- Hide the visible rows of a link; say whether there were any. -/
def hideLinkRows (ends : LinkEnds) (deletionReason updatedAt : String) : RevertProgram Bool :=
  .execute fun (rows : Rows) =>
    let links := rows.link ends
    if links.any ObjectLink.isVisible then
      (true, .put (.link ends) (links.map fun link =>
        if link.isVisible then (linkDeletion deletionReason updatedAt).apply link else link))
    else (false, ∅)

/-- Create the link, or revive the row that already occupies its key. -/
def putLinkRow (write : ObjectLinkWrite) : RevertProgram Unit :=
  .execute fun (rows : Rows) =>
    let links := rows.link write.ends
    ((), .put (.link write.ends) (
      if links.any fun link => link.indexVersion = activeIndexName then
        links.map fun link =>
          if link.indexVersion = activeIndexName then (reactivation write.updatedAt).apply link
          else link
      else links ++ [objectLinkValues write]))

def reverseLink (edit : ObjectEdit) (linkType : LinkTypeRow) (fromObjectId toObjectId : String)
    (isCreation : Bool) : RevertProgram Unit := do
  proceedWithText "fromObjectId" fromObjectId
  proceedWithText "toObjectId" toObjectId
  if isCreation then
    let deleted ← hideLinkRows ⟨tenantId, linkType, fromObjectId, toObjectId⟩
      s!"revert:{call.revertRunId}" (call.nowAt edit)
    proceed deleted (conflictDetected "link changed before Action revert")
  else
    putLinkRow ⟨call.linkRecordId edit, tenantId, linkType, fromObjectId, toObjectId,
      call.nowAt edit⟩

/-- The inverse operation that the evidence of an edit describes. -/
def invertLoggedEdit (edit : ObjectEdit) : RevertPayload → RevertProgram Unit
  | .setProperty _ previous => restoreObjectProperties tenantId ontology call edit previous
  | .createObject version => removeCreatedObject tenantId call edit version
  | .deleteObject version => bringBackDeletedObject tenantId call edit version
  | .createLink linkType fromObjectId toObjectId _ =>
    reverseLink tenantId call edit linkType fromObjectId toObjectId true
  | .deleteLink linkType fromObjectId toObjectId _ =>
    reverseLink tenantId call edit linkType fromObjectId toObjectId false

/-- The row that logs the inverse of an edit, without evidence of its own. -/
def inverseEditRow (edit : ObjectEdit) : ObjectEdit where
  id := call.editId edit
  tenantId := tenantId
  actionRunId := call.revertRunId
  objectType := edit.objectType
  objectId := edit.objectId
  editType := .revert edit.editType
  patch := Dict.ofList [("revertOfEditId", .str edit.id)]
  previousValues := ∅
  actorUserId := call.actorUserId
  idempotencyKey := s!"{call.revertRunId}:{edit.id}"
  createdAt := call.nowAt edit
  revertPayload := none

def revertLoggedEdit (edit : ObjectEdit) : RevertProgram Unit := do
  match edit.revertPayload with
  | none => refuse (invariantViolation "Action edit is missing structured revert evidence")
  | some payload =>
    invertLoggedEdit tenantId ontology call edit payload
    .execute fun _ => ((), .append (inverseEditRow tenantId call edit))

/-! ### Claiming the run -/

def revertRunRow (original : RunRow) : RunRow where
  id := call.revertRunId
  tenantId := tenantId
  actorUserId := call.actorUserId
  status := .received
  completedAt := none
  actionTypeId := original.actionTypeId
  idempotencyKey := revertKey runId call.idempotencyKey
  parameters := Dict.ofList [("revertOfActionRunId", .str runId)]
  result := none

/-- Insert the run of the revert, unless its id or its idempotency key is taken. -/
def insertRevertRun (original : RunRow) : RevertProgram Unit := do
  let inserted ← .execute fun (rows : Rows) =>
    if (rows.run call.revertRunId).isSome ||
        (rows.row (.runIdempotency (runKey tenantId runId call original))).isSome then (false, ∅)
    else (true,
      (Writes.put (.run call.revertRunId) (some (revertRunRow tenantId runId call original))).andThen
        (.put (.runIdempotency (runKey tenantId runId call original)) (some call.revertRunId)))
  proceed inserted (databaseError "UNIQUE constraint failed: action_runs")

def revertResult (editCount : ℕ) (hasEffects : Bool) : PropertyMap :=
  Dict.ofList
    [("status", .str "succeeded"), ("revertOfActionRunId", .str runId),
      ("editCount", .int editCount), ("hasPreservedExternalEffects", .bool hasEffects)]

def completedRun (row : RunRow) (result : PropertyMap) : RunRow :=
  { row with
    status := actionRunSucceeded.toStatus
    result := some result
    completedAt := some call.completedAt }

/-- Move the run of the revert to its terminal status; say whether it was there to be moved. -/
def updateRunTerminal (result : PropertyMap) : RevertProgram Bool :=
  .execute fun (rows : Rows) =>
    match rows.run call.revertRunId with
    | some row =>
      if row.tenantId = tenantId ∧ row.status ∈ actionRunSucceeded.fromStatuses then
        (true, .put (.run call.revertRunId) (some (completedRun call row result)))
      else (false, ∅)
    | none => (false, ∅)

def markedLog (log : ActionLogEntry) : ActionLogEntry :=
  { log with revertStatus := .reverted, revertedByRunId := some call.revertRunId }

/-- Record the single winning revert run, unless there is one; say whether it was recorded. -/
def markLogReverted : RevertProgram Bool :=
  .execute fun (rows : Rows) =>
    match rows.log tenantId runId with
    | some log =>
      if log.revertStatus = .eligible ∧ log.revertedByRunId = none then
        (true, .put (.log tenantId runId) (some (markedLog call log)))
      else (false, ∅)
    | none => (false, ∅)

/-- Log the run of the revert itself, which may not be reverted in its turn. -/
def recordRevertLog : RevertProgram Unit := do
  let run ← .query fun (rows : Rows) => (rows.run call.revertRunId).filter fun run => run.tenantId = tenantId
  proceed (run.any fun run => run.status ∈ [.succeeded, .reconciled] ∧ run.completedAt.isSome)
    (invariantViolation
      "successful or reconciled Action run is required before writing its Action log")
  .execute fun (rows : Rows) =>
    ((), if (rows.log tenantId call.revertRunId).isSome then ∅
      else .put (.log tenantId call.revertRunId)
        (some ⟨tenantId, call.revertRunId, .succeeded, false, .notAllowed, none⟩))

def finalizeRevert (editCount : ℕ) : RevertProgram PropertyMap := do
  let hasEffects ← hasPreservedEffects tenantId runId
  let result := revertResult runId editCount hasEffects
  let updated ← updateRunTerminal tenantId call result
  proceed updated (conflictDetected "Action revert lost a concurrent commit race")
  let marked ← markLogReverted tenantId runId call
  proceed marked (conflictDetected "Action revert lost a concurrent commit race")
  recordRevertLog tenantId call
  return (Dict.ofList [("actionRunId", .str call.revertRunId)]).update result

/-! ### One request -/

/-- Apply the inverse edits and claim the run. -/
def applyRevert (original : RunRow) (log : ActionLogEntry) (edits : List ObjectEdit) :
    RevertProgram PropertyMap := do
  requireEligible tenantId call original log edits
  insertRevertRun tenantId runId call original
  let committed ← edits.reverse.mapM (revertLoggedEdit tenantId ontology call)
  finalizeRevert tenantId runId call committed.length

/-- The statements of one request, and its answer. -/
def revertProgram : RevertProgram PropertyMap := do
  proceed (Text.strip call.idempotencyKey ≠ "")
    ⟨.validationFailed, "Idempotency-Key is required", []⟩
  let (original, log, edits) ← readRevertSource tenantId runId
  match ← existingRevert tenantId runId call original with
  | some existing => return revertResponse existing runId
  | none => applyRevert tenantId runId ontology call original log edits

end

end FoundryLite.Actions
