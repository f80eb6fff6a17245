import FoundryLite.Actions.EditPlan

/-!
# Committing an edit plan

The committer applies every edit of a checked plan inside the caller's transaction: creations,
then modifications, deletions, link creations and link deletions. Each edit leaves a row in the
edit log with the evidence a revert needs, and the action run is moved to its terminal status. Any
conflict raises, and the whole plan is rolled back with the transaction.

Each edit is applied by its own function. What a successful application did to the tables is stated
once for each of them (`createOne_eq_ok`, `modifyExisting_eq_ok`, ...), and `commitPlan_eq_ok`
reduces a successful commit to one loop over the planned edits.

## Main results

* `commitPlan_eq_ok`: a successful commit applied the planned edits in order.
-/

namespace FoundryLite.Actions

open ObjectStore Transaction

/-! ### Revert evidence -/

/-- What each key of a patch was bound to in the edit overlay. -/
def priorValues (record : ObjectRecord) (patch : PropertyMap) : Dict String PriorValue :=
  Dict.ofList (patch.keys.map fun key =>
    (key, ⟨(record.editProperties.get? key).isSome,
      (record.editProperties.get? key).getD .null⟩))

def propertyRevertPayload (record : ObjectRecord) (patch : PropertyMap) : RevertPayload :=
  .setProperty (record.objectVersion + 1) (priorValues record patch)

def createdObjectRevertPayload : RevertPayload := .createObject 1

def deletedObjectRevertPayload (record : ObjectRecord) : RevertPayload :=
  .deleteObject (record.objectVersion + 1)

/-! ### Results -/

structure CommittedEdit where
  editId : String
  objectType : String
  objectId : String
  operation : EditType
  deriving DecidableEq

structure ActionEditPlanResult where
  actionRunId : String
  status : ActionRunStatus
  edits : List CommittedEdit
  createdObjectIds : List String
  deletedObjectIds : List String
  linksCreated : ℕ
  linksDeleted : ℕ
  deriving DecidableEq

/-- What the log writer reads of the compiled action contract. -/
structure LogPolicy where
  isRevertEnabled : Bool

/-! ### One edit -/

section

variable (env : Environment) (ctx : RequestContext) (ontology : Ontology) (actionRunId : String)

/-- Append a row to the edit log. -/
def recordEdit (objectType : ObjectTypeId) (objectId : String) (editType : EditType)
    (patch previous : PropertyMap) (operationKey : String) (revertPayload : Option RevertPayload) :
    Tx String := do
  let editId ← newId env "edit"
  let createdAt ← now env
  insertObjectEdit
    { id := editId
      tenantId := ctx.tenantId
      actionRunId
      objectType
      objectId
      editType
      patch
      previousValues := previous
      actorUserId := ctx.actorUserId
      idempotencyKey := operationKey
      createdAt
      revertPayload }
  return editId

def objectDetails (objectType objectId : String) : Mapping :=
  [("objectType", .str objectType), ("objectId", .str objectId)]

def createOne (objectType objectId : String) (properties : PropertyMap) (operationKey : String) :
    Tx CommittedEdit := do
  let typeId ← demandSome (ontology.activeObjectType objectType)
    (notFound "object type not found" [("api_name", .str objectType)])
  let objectRecordId ← newId env "obj"
  let createdAt ← now env
  let inserted ← createObjectRecordWrite
    { objectRecordId
      tenantId := ctx.tenantId
      objectType := typeId
      objectId
      properties
      createdAt }
  demand inserted (conflictDetected "action create targets an object that already exists"
    (objectDetails objectType objectId))
  let editId ← recordEdit env ctx actionRunId typeId objectId (.edit .createObject) properties ∅
    operationKey createdObjectRevertPayload
  return ⟨editId, objectType, objectId, .edit .createObject⟩

def modifyExisting (modify : ObjectModify) (record : ObjectRecord) : Tx CommittedEdit := do
  let editProperties := record.editProperties.update modify.patch
  let merged := mergeProperties (ontology.properties record.objectType) record.baseProperties
    editProperties
  let updatedAt ← now env
  let updated ← updateObjectTarget
    { objectRecordId := record.id
      tenantId := ctx.tenantId
      expectedObjectVersion := modify.expectedVersion
      editProperties
      properties := merged
      nextObjectVersion := modify.expectedVersion.succPNat
      updatedAt }
  demand updated (conflictDetected "object version conflict during commit"
    (objectDetails modify.objectType modify.objectId))
  let previous := Dict.ofList (modify.patch.keys.map fun key =>
    (key, (record.properties.get? key).getD .null))
  let editId ← recordEdit env ctx actionRunId record.objectType modify.objectId
    (.edit .setProperty) modify.patch previous modify.operationKey
    (propertyRevertPayload record modify.patch)
  return ⟨editId, modify.objectType, modify.objectId, .edit .setProperty⟩

def modifyOne (modify : ObjectModify) : Tx CommittedEdit := do
  let store ← get
  match store.objectRecord ⟨ctx.tenantId, modify.objectType, modify.objectId⟩ with
  | some record => modifyExisting env ctx ontology actionRunId modify record
  | none =>
    if modify.shouldCreateIfAbsent then
      createOne env ctx ontology actionRunId modify.objectType modify.objectId modify.patch
        modify.operationKey
    else
      throw (conflictDetected "action modify targets a missing object"
        (objectDetails modify.objectType modify.objectId))

def deleteOne (delete : ObjectDelete) : Tx CommittedEdit := do
  let store ← get
  let record ← demandSome (store.objectRecord ⟨ctx.tenantId, delete.objectType, delete.objectId⟩)
    (conflictDetected "action delete targets a missing object"
      (objectDetails delete.objectType delete.objectId))
  let updatedAt ← now env
  let deleted ← softDeleteObjectWrite
    { objectRecordId := record.id
      tenantId := ctx.tenantId
      expectedObjectVersion := delete.expectedVersion
      deletionReason := s!"action:{actionRunId}"
      updatedAt }
  demand deleted (conflictDetected "object version conflict during delete"
    (objectDetails delete.objectType delete.objectId))
  let editId ← recordEdit env ctx actionRunId record.objectType delete.objectId
    (.edit .deleteObject) ∅ record.properties delete.operationKey
    (deletedObjectRevertPayload record)
  return ⟨editId, delete.objectType, delete.objectId, .edit .deleteObject⟩

/-- Log a link edit under its source object. -/
def recordLinkEdit (link : PlannedLink) (row : LinkTypeRow) (operation : EditOperation)
    (revertPayload : RevertPayload) : Tx CommittedEdit := do
  let patch := Dict.ofList
    [("linkType", .str link.linkType),
      ("toApiName", .str row.toObjectType.apiName),
      ("toObjectId", .str link.targetObjectId)]
  let editId ← recordEdit env ctx actionRunId row.fromObjectType link.sourceObjectId
    (.edit operation) patch ∅ link.operationKey revertPayload
  return ⟨editId, row.fromObjectType.apiName, link.sourceObjectId, .edit operation⟩

def createLinkOne (link : LinkCreate) : Tx CommittedEdit := do
  let row ← demandSome (ontology.linkType link.linkType)
    (notFound "link type not found" [("api_name", .str link.linkType)])
  let linkRecordId ← newId env "lnk"
  let updatedAt ← now env
  createObjectLinkWrite
    { linkRecordId
      tenantId := ctx.tenantId
      linkType := row
      fromObjectId := link.sourceObjectId
      toObjectId := link.targetObjectId
      updatedAt }
  recordLinkEdit env ctx actionRunId link row .createLink
    (.createLink row link.sourceObjectId link.targetObjectId true)

def deleteLinkOne (link : LinkDelete) : Tx CommittedEdit := do
  let row ← demandSome (ontology.linkType link.linkType)
    (notFound "link type not found" [("api_name", .str link.linkType)])
  let updatedAt ← now env
  let deleted ← softDeleteObjectLinkWrite
    { tenantId := ctx.tenantId
      linkType := row
      fromObjectId := link.sourceObjectId
      toObjectId := link.targetObjectId
      deletionReason := s!"action:{actionRunId}"
      updatedAt }
  demand deleted (conflictDetected "link no longer exists during delete"
    [("linkType", .str link.linkType), ("sourceObjectId", .str link.sourceObjectId)])
  recordLinkEdit env ctx actionRunId link row .deleteLink
    (.deleteLink row link.sourceObjectId link.targetObjectId false)

/-- Apply one planned edit. -/
def applyEdit : PlannedEdit → Tx CommittedEdit
  | .createObject create =>
    createOne env ctx ontology actionRunId create.objectType (env.str create.primaryKey)
      create.properties create.operationKey
  | .modifyObject modify => modifyOne env ctx ontology actionRunId modify
  | .deleteObject delete => deleteOne env ctx actionRunId delete
  | .createLink link => createLinkOne env ctx ontology actionRunId link
  | .deleteLink link => deleteLinkOne env ctx ontology actionRunId link

/-! ### The whole plan -/

/-- Move an action run to a terminal status; `false` if its status does not allow it. -/
def updateActionRunTerminal (transition : StatusTransition) (completedAt : Option String) :
    Tx Bool := do
  let store ← get
  let hit := fun run : ActionRun =>
    run.tenantId = ctx.tenantId && run.id = actionRunId && run.status ∈ transition.fromStatuses
  set { store with
    actionRuns := store.actionRuns.map fun run =>
      if hit run then { run with status := transition.toStatus, completedAt } else run }
  return store.actionRuns.countP hit = 1

def finalizeRun (transition : StatusTransition) : Tx Unit := do
  let completedAt ← now env
  let updated ← updateActionRunTerminal ctx actionRunId transition completedAt
  demand updated (conflictDetected "action run terminal state changed concurrently")

/-- Write the log entry of a finished run, once. -/
def recordActionLog (policy : LogPolicy) : Tx Unit := do
  let store ← get
  let isRun := fun run : ActionRun => run.tenantId = ctx.tenantId && run.id = actionRunId
  let isFinished := fun run : ActionRun =>
    run.status ∈ [.succeeded, .reconciled] && run.completedAt.isSome
  let run ← demandSome ((store.actionRuns.find? isRun).filter isFinished) (invariantViolation
    "successful or reconciled Action run is required before writing its Action log")
  let isLogged := store.actionLogs.any fun entry =>
    entry.tenantId = ctx.tenantId && entry.actionRunId = actionRunId
  let entry : ActionLogEntry :=
    { tenantId := ctx.tenantId
      actionRunId
      status := run.status
      revertAllowed := policy.isRevertEnabled
      revertStatus := if policy.isRevertEnabled then .eligible else .notAllowed
      revertedByRunId := none }
  set { store with
    actionLogs := if isLogged then store.actionLogs else store.actionLogs ++ [entry] }

/-- Apply a plan, finish its run, and log it. -/
def commitPlan (plan : EditPlan) (contract : Option LogPolicy)
    (transition : StatusTransition := actionRunSucceeded) : Tx ActionEditPlanResult := do
  let createEdits ← plan.objectsToCreate.mapM fun create =>
    applyEdit env ctx ontology actionRunId (.createObject create)
  let modifyEdits ← plan.objectsToModify.mapM (modifyOne env ctx ontology actionRunId)
  let deleteEdits ← plan.objectsToDelete.mapM (deleteOne env ctx actionRunId)
  let linkCreateEdits ← plan.linksToCreate.mapM (createLinkOne env ctx ontology actionRunId)
  let linkDeleteEdits ← plan.linksToDelete.mapM (deleteLinkOne env ctx ontology actionRunId)
  let edits := createEdits ++ (modifyEdits ++ (deleteEdits ++ (linkCreateEdits ++ linkDeleteEdits)))
  let result : ActionEditPlanResult :=
    { actionRunId
      status := transition.toStatus
      edits
      createdObjectIds := (edits.filter (·.operation = .edit .createObject)).map (·.objectId)
      deletedObjectIds := (edits.filter (·.operation = .edit .deleteObject)).map (·.objectId)
      linksCreated := linkCreateEdits.length
      linksDeleted := linkDeleteEdits.length }
  finalizeRun env ctx actionRunId transition
  contract.forM (recordActionLog ctx actionRunId)
  return result

/-! ### What a successful edit did -/

variable {env ctx ontology actionRunId} {s s' : Store}

/-- One row was appended to the edit log, with the given object and evidence. -/
def Logged (ctx : RequestContext) (actionRunId : String) (objectType : ObjectTypeId)
    (objectId : String) (payload : Option RevertPayload) (s s' : Store) : Prop :=
  ∃ row : ObjectEdit, s'.edits = s.edits ++ [row] ∧ row.tenantId = ctx.tenantId ∧
    row.actionRunId = actionRunId ∧ row.objectType = objectType ∧ row.objectId = objectId ∧
    row.revertPayload = payload

theorem recordEdit_eq_ok {objectType : ObjectTypeId} {objectId operationKey editId : String}
    {editType : EditType} {patch previous : PropertyMap} {payload : Option RevertPayload}
    (h : recordEdit env ctx actionRunId objectType objectId editType patch previous operationKey
      payload s = .ok (editId, s')) :
    s'.objects = s.objects ∧ s'.links = s.links ∧
      Logged ctx actionRunId objectType objectId payload s s' := by
  simp only [recordEdit, insertObjectEdit, bind_eq_ok_iff,
    modify_eq_ok_iff, pure_eq_ok_iff, Prod.mk.injEq] at h
  obtain ⟨id, s₁, hid, time, s₂, htime, u, s₃, ⟨-, rfl⟩, -, rfl⟩ := h
  have hsame := (sameRows_of_newId hid).trans (sameRows_of_now htime)
  exact ⟨hsame.objects, hsame.links, _, congrArg (· ++ [_]) hsame.edits, rfl, rfl, rfl, rfl, rfl⟩

/-- **Creation**: the key was free and now holds a visible row at version 1. -/
theorem createOne_eq_ok {objectType objectId operationKey : String} {properties : PropertyMap}
    {edit : CommittedEdit}
    (h : createOne env ctx ontology actionRunId objectType objectId properties operationKey s
      = .ok (edit, s')) :
    ∃ typeId, ∃ row : ObjectRecord, ontology.activeObjectType objectType = some typeId ∧
      row.identity = ⟨ctx.tenantId, typeId, objectId, activeIndexName⟩ ∧ row.isActive = true ∧
      row.deleted = false ∧ row.objectVersion = 1 ∧ s.objects.insert? row = some s'.objects ∧
      s'.links = s.links ∧
      Logged ctx actionRunId typeId objectId createdObjectRevertPayload s s' := by
  simp only [createOne, bind_eq_ok_iff, demandSome_eq_ok_iff, demand_eq_ok_iff,
    pure_eq_ok_iff, Prod.mk.injEq] at h
  obtain ⟨_, s₁, ⟨typeId, htype, rfl, rfl⟩, recordId, s₂, hid, time, s₃, htime, inserted, s₄,
    hinsert, u, s₅, ⟨rfl, -, rfl⟩, editId, s₆, hlog, -, rfl⟩ := h
  have hsame := (sameRows_of_newId hid).trans (sameRows_of_now htime)
  obtain ⟨n, hrow, hlinks, hedits⟩ := createObjectRecordWrite_eq_true hinsert
  obtain ⟨hobjects₆, hlinks₆, row, hedits₆, hlogged⟩ := recordEdit_eq_ok hlog
  rw [hsame.objects, ← hobjects₆] at hrow
  refine ⟨typeId, _, htype, ?_, ?_, ?_, ?_, hrow, hlinks₆.trans (hlinks.trans hsame.links), row, ?_,
    hlogged⟩
  · rfl
  · rfl
  · rfl
  · rfl
  · rw [hedits₆, hedits, hsame.edits]

/-- **Modification**: the record was at the planned version; its overlay took the patch and its
version advanced by one. -/
theorem modifyExisting_eq_ok {modify : ObjectModify} {record : ObjectRecord}
    {edit : CommittedEdit} (hrecord : record ∈ s.objects.rows)
    (h : modifyExisting env ctx ontology actionRunId modify record s = .ok (edit, s')) :
    ∃ write n, (record.objectVersion : ℕ) = modify.expectedVersion ∧
      write.editProperties = record.editProperties.update modify.patch ∧
      write.properties = mergeProperties (ontology.properties record.objectType)
        record.baseProperties (record.editProperties.update modify.patch) ∧
      write.nextObjectVersion = record.objectVersion + 1 ∧
      s'.objects = s.objects.updateRow record.id (targetUpdate write n) ∧ s'.links = s.links ∧
      Logged ctx actionRunId record.objectType modify.objectId
        (propertyRevertPayload record modify.patch) s s' := by
  simp only [modifyExisting, updateObjectTarget, bind_eq_ok_iff, demand_eq_ok_iff,
    pure_eq_ok_iff, Prod.mk.injEq] at h
  obtain ⟨time, s₁, htime, updated, s₂, hupdate, u, s₃, ⟨rfl, -, rfl⟩, editId, s₄, hlog, -, rfl⟩ :=
    h
  have hsame := sameRows_of_now htime
  obtain ⟨n, row, hrow, hid, -, hguard, hobjects, hlinks, hedits⟩ :=
    conditionalObjectUpdate_eq_true hupdate
  obtain rfl : row = record := Table.eq_of_pk_eq hrow (hsame.objects ▸ hrecord) hid
  obtain ⟨hobjects₄, hlinks₄, logRow, hedits₄, hlogged⟩ := recordEdit_eq_ok hlog
  have hversion : (row.objectVersion : ℕ) = modify.expectedVersion := by simpa using hguard
  refine ⟨_, n, hversion, ?_, ?_, ?_, hobjects₄.trans (hsame.objects ▸ hobjects),
    hlinks₄.trans (hlinks.trans hsame.links), logRow, ?_, hlogged⟩
  · rfl
  · rfl
  · exact PNat.eq (by simp [hversion])
  · rw [hedits₄, hedits, hsame.edits]

/-- **Deletion**: the record was found at the planned version; it is now deleted and its version
advanced by one. -/
theorem deleteOne_eq_ok {delete : ObjectDelete} {edit : CommittedEdit}
    (h : deleteOne env ctx actionRunId delete s = .ok (edit, s')) :
    ∃ record write n,
      s.objectRecord ⟨ctx.tenantId, delete.objectType, delete.objectId⟩ = some record ∧
      (record.objectVersion : ℕ) = delete.expectedVersion ∧
      write.expectedObjectVersion.succPNat = record.objectVersion + 1 ∧
      s'.objects = s.objects.updateRow record.id (softDeletion write n) ∧ s'.links = s.links ∧
      Logged ctx actionRunId record.objectType delete.objectId (deletedObjectRevertPayload record)
        s s' := by
  simp only [deleteOne, softDeleteObjectWrite, bind_eq_ok_iff,
    get_eq_ok_iff, demandSome_eq_ok_iff, demand_eq_ok_iff, pure_eq_ok_iff,
    Prod.mk.injEq] at h
  obtain ⟨store, s₁, ⟨rfl, rfl⟩, _, s₂, ⟨record, hfound, rfl, rfl⟩, time, s₃, htime, deleted, s₄,
    hdelete, u, s₅, ⟨rfl, -, rfl⟩, editId, s₆, hlog, -, rfl⟩ := h
  have hsame := sameRows_of_now htime
  have hrecord := (Store.objectRecord_eq_some hfound).1
  obtain ⟨n, row, hrow, hid, -, hguard, hobjects, hlinks, hedits⟩ :=
    conditionalObjectUpdate_eq_true hdelete
  obtain rfl : row = record := Table.eq_of_pk_eq hrow (hsame.objects ▸ hrecord) hid
  obtain ⟨hobjects₆, hlinks₆, logRow, hedits₆, hlogged⟩ := recordEdit_eq_ok hlog
  have hversion : (row.objectVersion : ℕ) = delete.expectedVersion := by simpa using hguard
  refine ⟨row, _, n, hfound, hversion, ?_, hobjects₆.trans (hsame.objects ▸ hobjects),
    hlinks₆.trans (hlinks.trans hsame.links), logRow, ?_, hlogged⟩
  · exact PNat.eq (by simp [hversion])
  · rw [hedits₆, hedits, hsame.edits]

theorem recordLinkEdit_eq_ok {link : PlannedLink} {row : LinkTypeRow} {operation : EditOperation}
    {payload : RevertPayload} {edit : CommittedEdit}
    (h : recordLinkEdit env ctx actionRunId link row operation payload s = .ok (edit, s')) :
    s'.objects = s.objects ∧ s'.links = s.links ∧
      Logged ctx actionRunId row.fromObjectType link.sourceObjectId payload s s' := by
  simp only [recordLinkEdit, bind_eq_ok_iff, pure_eq_ok_iff,
    Prod.mk.injEq] at h
  obtain ⟨editId, s₁, hlog, -, rfl⟩ := h
  exact recordEdit_eq_ok hlog

/-- The ends of a planned link, once its link type is resolved. -/
def linkEnds (ctx : RequestContext) (row : LinkTypeRow) (link : PlannedLink) : LinkEnds :=
  ⟨ctx.tenantId, row, link.sourceObjectId, link.targetObjectId⟩

/-- **Link creation** makes the row under `"active"` visible. -/
theorem createLinkOne_eq_ok {link : LinkCreate} {edit : CommittedEdit}
    (h : createLinkOne env ctx ontology actionRunId link s = .ok (edit, s')) :
    ∃ row, ontology.linkType link.linkType = some row ∧ s'.objects = s.objects ∧
      s.KeepsLinks s' ∧ (∀ key, s'.isLinkVisible key
        = if key = (linkEnds ctx row link, activeIndexName) then true else s.isLinkVisible key) ∧
      Logged ctx actionRunId row.fromObjectType link.sourceObjectId
        (some (.createLink row link.sourceObjectId link.targetObjectId true)) s s' := by
  simp only [createLinkOne, bind_eq_ok_iff, demandSome_eq_ok_iff, Prod.mk.injEq] at h
  obtain ⟨_, s₁, ⟨row, htype, rfl, rfl⟩, recordId, s₂, hid, time, s₃, htime, u, s₄, hcreate, hlog⟩ :=
    h
  have hsame := (sameRows_of_newId hid).trans (sameRows_of_now htime)
  obtain ⟨hobjects, hedits, hkeeps, hvisible⟩ := createObjectLinkWrite_eq_ok hcreate
  obtain ⟨hobjects₅, hlinks₅, logRow, hedits₅, hlogged⟩ := recordLinkEdit_eq_ok hlog
  have hkeeps' := ((Store.KeepsLinks.of_links_eq hsame.links).trans hkeeps).trans
    (Store.KeepsLinks.of_links_eq hlinks₅)
  refine ⟨row, htype, hobjects₅.trans (hobjects.trans hsame.objects), hkeeps', fun key => ?_, logRow,
    ?_, hlogged⟩
  · rw [Store.isLinkVisible_congr hlinks₅, hvisible, Store.isLinkVisible_congr hsame.links]
    rfl
  · rw [hedits₅, hedits, hsame.edits]

/-- **Link deletion** found a visible row and hid the rows of every index version. -/
theorem deleteLinkOne_eq_ok {link : LinkDelete} {edit : CommittedEdit}
    (h : deleteLinkOne env ctx ontology actionRunId link s = .ok (edit, s')) :
    ∃ row, ontology.linkType link.linkType = some row ∧ s'.objects = s.objects ∧
      s.KeepsLinks s' ∧ (∃ version, s.isLinkVisible (linkEnds ctx row link, version) = true) ∧
      (∀ key, s'.isLinkVisible key
        = if key.1 = linkEnds ctx row link then false else s.isLinkVisible key) ∧
      Logged ctx actionRunId row.fromObjectType link.sourceObjectId
        (some (.deleteLink row link.sourceObjectId link.targetObjectId false)) s s' := by
  simp only [deleteLinkOne, bind_eq_ok_iff, demandSome_eq_ok_iff, demand_eq_ok_iff,
    Prod.mk.injEq] at h
  obtain ⟨_, s₁, ⟨row, htype, rfl, rfl⟩, time, s₂, htime, deleted, s₃, hdelete, u, s₄,
    ⟨rfl, -, rfl⟩, hlog⟩ := h
  have hsame := sameRows_of_now htime
  obtain ⟨hobjects, hedits, hkeeps, hfound, hvisible⟩ := softDeleteObjectLinkWrite_eq_ok hdelete
  obtain ⟨hobjects₅, hlinks₅, logRow, hedits₅, hlogged⟩ := recordLinkEdit_eq_ok hlog
  have hkeeps' := ((Store.KeepsLinks.of_links_eq hsame.links).trans hkeeps).trans
    (Store.KeepsLinks.of_links_eq hlinks₅)
  refine ⟨row, htype, hobjects₅.trans (hobjects.trans hsame.objects), hkeeps', ?_, fun key => ?_,
    logRow, ?_, hlogged⟩
  · obtain ⟨version, hversion⟩ := hfound.mp rfl
    rw [Store.isLinkVisible_congr hsame.links] at hversion
    exact ⟨version, hversion⟩
  · rw [Store.isLinkVisible_congr hlinks₅, hvisible, Store.isLinkVisible_congr hsame.links]
    rfl
  · rw [hedits₅, hedits, hsame.edits]

/-! ### What a successful commit did -/

theorem sameRows_of_finalizeRun {transition : StatusTransition} {u : Unit}
    (h : finalizeRun env ctx actionRunId transition s = .ok (u, s')) : SameRows s s' := by
  simp only [finalizeRun, updateActionRunTerminal, bind_eq_ok_iff,
    get_eq_ok_iff, set_eq_ok_iff, pure_eq_ok_iff,
    demand_eq_ok_iff, Prod.mk.injEq] at h
  obtain ⟨time, s₁, htime, updated, s₂, ⟨store, s₃, ⟨rfl, rfl⟩, -, s₄, ⟨-, rfl⟩, -, rfl⟩, -, -,
    rfl⟩ := h
  exact (sameRows_of_now htime).trans ⟨rfl, rfl, rfl⟩

theorem sameRows_of_recordActionLog {policy : LogPolicy} {u : Unit}
    (h : recordActionLog ctx actionRunId policy s = .ok (u, s')) : SameRows s s' := by
  simp only [recordActionLog, bind_eq_ok_iff, get_eq_ok_iff,
    set_eq_ok_iff, demandSome_eq_ok_iff, Prod.mk.injEq] at h
  obtain ⟨store, s₁, ⟨rfl, rfl⟩, run, s₂, ⟨_, -, -, rfl⟩, -, rfl⟩ := h
  exact ⟨rfl, rfl, rfl⟩

theorem mapM_map_eq_ok_iff {α β γ : Type} {f : β → Tx γ} {g : α → β} {l : List α} {cs : List γ} :
    (l.map g).mapM f s = .ok (cs, s') ↔ (l.mapM fun a => f (g a)) s = .ok (cs, s') := by
  induction l generalizing s cs with
  | nil => rfl
  | cons a l ih => simp only [List.map_cons, mapM_cons_eq_ok_iff, ih]

/-- **A successful commit applied the planned edits in order**, and touched no row after that. -/
theorem commitPlan_eq_ok {plan : EditPlan} {contract : Option LogPolicy}
    {transition : StatusTransition} {result : ActionEditPlanResult}
    (h : commitPlan env ctx ontology actionRunId plan contract transition s = .ok (result, s')) :
    ∃ edits t, plan.plannedEdits.mapM (applyEdit env ctx ontology actionRunId) s = .ok (edits, t) ∧
      SameRows t s' := by
  simp only [commitPlan, bind_eq_ok_iff, pure_eq_ok_iff] at h
  obtain ⟨creates, s₁, h₁, modifies, s₂, h₂, deletes, s₃, h₃, linkCreates, s₄, h₄, linkDeletes, s₅,
    h₅, u, s₆, hfinal, v, s₇, hlog, heq⟩ := h
  obtain ⟨-, rfl⟩ := Prod.mk.inj heq
  refine ⟨creates ++ (modifies ++ (deletes ++ (linkCreates ++ linkDeletes))), s₅, ?_,
    (sameRows_of_finalizeRun hfinal).trans ?_⟩
  · simp only [EditPlan.plannedEdits, mapM_append_eq_ok_iff, mapM_map_eq_ok_iff]
    exact ⟨_, _, _, h₁, ⟨_, _, _, h₂, ⟨_, _, _, h₃, ⟨_, _, _, h₄, h₅, rfl⟩, rfl⟩, rfl⟩, rfl⟩
  · cases contract with
    | none =>
      obtain ⟨-, rfl⟩ := Prod.mk.inj (pure_eq_ok_iff.mp hlog)
      exact SameRows.refl s₆
    | some policy => exact sameRows_of_recordActionLog hlog

end

end FoundryLite.Actions
