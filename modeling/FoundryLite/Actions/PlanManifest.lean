import FoundryLite.Actions.EditPlan

/-!
# The manifest of an edit plan

A plan that waits for an approval is stored as a manifest, a JSON document, and is rebuilt from it
before it is committed. The reader is stricter than the checks of a plan: it refuses an empty text
wherever it reads one, a negative version, and a direction or an aggregation it does not know. A
plan that has none of these is rebuilt as it was.

Here a plan has all its fields: the rule each edit comes from, versions as signed integers, the
versions of the objects that were read, and the evidence of criteria reads.

## Main results

* `editPlanFromManifest_editPlanManifest_iff`: a checked plan is rebuilt as it was exactly when it
  is storable, and is refused otherwise.
-/

namespace FoundryLite.Actions

open ObjectStore

/-! ### Plans with all their fields -/

structure RecordedCreate where
  operationKey : String
  ruleId : String
  objectType : String
  /-- `None` is `null`. -/
  primaryKey : Json
  properties : PropertyMap
  deriving DecidableEq

structure RecordedModify where
  operationKey : String
  ruleId : String
  objectType : String
  objectId : String
  expectedVersion : ℤ
  patch : PropertyMap
  shouldCreateIfAbsent : Bool := false
  deriving DecidableEq

structure RecordedDelete where
  operationKey : String
  ruleId : String
  objectType : String
  objectId : String
  expectedVersion : ℤ
  deriving DecidableEq

/-- A link to create or to delete. -/
structure RecordedLink where
  operationKey : String
  ruleId : String
  linkType : String
  sourceObjectId : String
  targetObjectId : String
  deriving DecidableEq

/-- Evidence for one read of linked objects by a submission criterion. -/
structure CriteriaReadExpectation where
  referenceKey : String
  linkType : String
  direction : String
  anchorObjectType : String
  anchorObjectId : String
  linkedObjectType : String
  propertyName : String
  aggregation : String
  snapshotFingerprint : String
  deriving DecidableEq

structure RecordedPlan where
  objectsToCreate : List RecordedCreate := []
  objectsToModify : List RecordedModify := []
  objectsToDelete : List RecordedDelete := []
  linksToCreate : List RecordedLink := []
  linksToDelete : List RecordedLink := []
  readSetVersions : Dict String ℤ := ∅
  criteriaReadExpectations : List CriteriaReadExpectation := []
  deriving DecidableEq

/-- The edits of a plan, without their rules and the evidence of what was read. -/
def RecordedPlan.edits (plan : RecordedPlan) : EditPlan where
  objectsToCreate := plan.objectsToCreate.map fun item =>
    ⟨item.operationKey, item.objectType, item.primaryKey, item.properties⟩
  objectsToModify := plan.objectsToModify.map fun item =>
    ⟨item.operationKey, item.objectType, item.objectId, item.expectedVersion.toNat, item.patch,
      item.shouldCreateIfAbsent⟩
  objectsToDelete := plan.objectsToDelete.map fun item =>
    ⟨item.operationKey, item.objectType, item.objectId, item.expectedVersion.toNat⟩
  linksToCreate := plan.linksToCreate.map fun item =>
    ⟨item.operationKey, item.linkType, item.sourceObjectId, item.targetObjectId⟩
  linksToDelete := plan.linksToDelete.map fun item =>
    ⟨item.operationKey, item.linkType, item.sourceObjectId, item.targetObjectId⟩

/-! ### Writing a manifest -/

def RecordedCreate.manifest (item : RecordedCreate) : Mapping :=
  [("operationKey", .str item.operationKey), ("ruleId", .str item.ruleId),
    ("objectType", .str item.objectType), ("objectId", item.primaryKey),
    ("properties", .obj item.properties.entries)]

def RecordedModify.manifest (item : RecordedModify) : Mapping :=
  [("operationKey", .str item.operationKey), ("ruleId", .str item.ruleId),
    ("objectType", .str item.objectType), ("objectId", .str item.objectId),
    ("expectedObjectVersion", .int item.expectedVersion), ("patch", .obj item.patch.entries),
    ("createIfAbsent", .bool item.shouldCreateIfAbsent)]

def RecordedDelete.manifest (item : RecordedDelete) : Mapping :=
  [("operationKey", .str item.operationKey), ("ruleId", .str item.ruleId),
    ("objectType", .str item.objectType), ("objectId", .str item.objectId),
    ("expectedObjectVersion", .int item.expectedVersion)]

def RecordedLink.manifest (item : RecordedLink) : Mapping :=
  [("operationKey", .str item.operationKey), ("ruleId", .str item.ruleId),
    ("linkType", .str item.linkType), ("sourceObjectId", .str item.sourceObjectId),
    ("targetObjectId", .str item.targetObjectId)]

def CriteriaReadExpectation.manifest (item : CriteriaReadExpectation) : Mapping :=
  [("referenceKey", .str item.referenceKey), ("linkType", .str item.linkType),
    ("direction", .str item.direction), ("anchorObjectType", .str item.anchorObjectType),
    ("anchorObjectId", .str item.anchorObjectId), ("linkedObjectType", .str item.linkedObjectType),
    ("property", .str item.propertyName), ("aggregation", .str item.aggregation),
    ("snapshotFingerprint", .str item.snapshotFingerprint)]

def manifestItems {α : Type} (manifest : α → Mapping) (items : List α) : Json :=
  .arr (items.map fun item => .obj (manifest item))

def editPlanManifest (plan : RecordedPlan) : Mapping :=
  [("objectCreates", manifestItems RecordedCreate.manifest plan.objectsToCreate),
    ("objectModifies", manifestItems RecordedModify.manifest plan.objectsToModify),
    ("objectDeletes", manifestItems RecordedDelete.manifest plan.objectsToDelete),
    ("linkCreates", manifestItems RecordedLink.manifest plan.linksToCreate),
    ("linkDeletes", manifestItems RecordedLink.manifest plan.linksToDelete),
    ("readSetVersions", .obj (plan.readSetVersions.entries.map fun e => (e.1, .int e.2)))] ++
  if plan.criteriaReadExpectations = [] then []
  else [("criteriaReadSet",
    manifestItems CriteriaReadExpectation.manifest plan.criteriaReadExpectations)]

/-! ### Reading a manifest -/

def requireText (key value : String) : Checked String :=
  if value = "" then
    validationFailed "Action plan manifest text field is invalid" [("field", .str key)]
  else pure value

def manifestText (item : Mapping) (key : String) : Checked String :=
  match item.lookup key with
  | some (.str value) => requireText key value
  | _ => validationFailed "Action plan manifest text field is invalid" [("field", .str key)]

def requireVersion (message detailKey key : String) (value : ℤ) : Checked ℤ :=
  if value < 0 then validationFailed message [(detailKey, .str key)] else pure value

def manifestVersion (item : Mapping) (key : String) : Checked ℤ :=
  match item.lookup key with
  | some (.int value) =>
    requireVersion "Action plan manifest version is invalid" "field" key value
  | _ => validationFailed "Action plan manifest version is invalid" [("field", .str key)]

def manifestMapping (raw : Option Json) (field : String) : Checked Mapping :=
  match raw with
  | some (.obj fields) => pure fields
  | _ => validationFailed "Action plan manifest field must be an object" [("field", .str field)]

def readItems (manifest : Mapping) (key : String) : Checked (List Mapping) :=
  match manifest.lookup key with
  | none => pure []
  | some (.arr items) => items.mapM fun item => manifestMapping (some item) key
  | some _ => validationFailed "Action plan manifest field must be a list" [("field", .str key)]

def readRecords {α : Type} (read : Mapping → Checked α) (manifest : Mapping) (key : String) :
    Checked (List α) := do
  let items ← readItems manifest key
  items.mapM read

def readObjectCreate (item : Mapping) : Checked RecordedCreate := do
  let operationKey ← manifestText item "operationKey"
  let ruleId ← manifestText item "ruleId"
  let objectType ← manifestText item "objectType"
  let properties ← manifestMapping (item.lookup "properties") "properties"
  return ⟨operationKey, ruleId, objectType, (item.lookup "objectId").getD .null,
    Dict.ofList properties⟩

def readObjectModify (item : Mapping) : Checked RecordedModify := do
  let operationKey ← manifestText item "operationKey"
  let ruleId ← manifestText item "ruleId"
  let objectType ← manifestText item "objectType"
  let objectId ← manifestText item "objectId"
  let expectedVersion ← manifestVersion item "expectedObjectVersion"
  let patch ← manifestMapping (item.lookup "patch") "patch"
  return ⟨operationKey, ruleId, objectType, objectId, expectedVersion, Dict.ofList patch,
    ((item.lookup "createIfAbsent").getD (.bool false)).isTruthy⟩

def readObjectDelete (item : Mapping) : Checked RecordedDelete := do
  let operationKey ← manifestText item "operationKey"
  let ruleId ← manifestText item "ruleId"
  let objectType ← manifestText item "objectType"
  let objectId ← manifestText item "objectId"
  let expectedVersion ← manifestVersion item "expectedObjectVersion"
  return ⟨operationKey, ruleId, objectType, objectId, expectedVersion⟩

def readLink (item : Mapping) : Checked RecordedLink := do
  let operationKey ← manifestText item "operationKey"
  let ruleId ← manifestText item "ruleId"
  let linkType ← manifestText item "linkType"
  let sourceObjectId ← manifestText item "sourceObjectId"
  let targetObjectId ← manifestText item "targetObjectId"
  return ⟨operationKey, ruleId, linkType, sourceObjectId, targetObjectId⟩

def readCriteria (item : Mapping) : Checked CriteriaReadExpectation := do
  let direction ← manifestText item "direction"
  let aggregation ← manifestText item "aggregation"
  rejectIf (direction ∉ ["incoming", "outgoing"]) "Action criteria read direction is invalid"
  rejectIf (aggregation ∉ ["values", "count"]) "Action criteria read aggregation is invalid"
  let referenceKey ← manifestText item "referenceKey"
  let linkType ← manifestText item "linkType"
  let anchorObjectType ← manifestText item "anchorObjectType"
  let anchorObjectId ← manifestText item "anchorObjectId"
  let linkedObjectType ← manifestText item "linkedObjectType"
  let propertyName ← manifestText item "property"
  let snapshotFingerprint ← manifestText item "snapshotFingerprint"
  return ⟨referenceKey, linkType, direction, anchorObjectType, anchorObjectId, linkedObjectType,
    propertyName, aggregation, snapshotFingerprint⟩

def readVersion : String × Json → Checked (String × ℤ)
  | (key, .int value) => do
    let value ← requireVersion "Action plan read-set version is invalid" "key" key value
    return (key, value)
  | (key, _) => validationFailed "Action plan read-set version is invalid" [("key", .str key)]

def readVersions (raw : Option Json) : Checked (Dict String ℤ) := do
  let raw := raw.getD .null
  let values ← manifestMapping (some (if raw.isTruthy then raw else .obj [])) "readSetVersions"
  let versions ← values.mapM readVersion
  return Dict.ofList versions

/-- Rebuild the plan that a manifest was written from. -/
def editPlanFromManifest (manifest : Mapping) : Checked RecordedPlan := do
  let objectsToCreate ← readRecords readObjectCreate manifest "objectCreates"
  let objectsToModify ← readRecords readObjectModify manifest "objectModifies"
  let objectsToDelete ← readRecords readObjectDelete manifest "objectDeletes"
  let linksToCreate ← readRecords readLink manifest "linkCreates"
  let linksToDelete ← readRecords readLink manifest "linkDeletes"
  let readSetVersions ← readVersions (manifest.lookup "readSetVersions")
  let criteriaReadExpectations ← readRecords readCriteria manifest "criteriaReadSet"
  let plan : RecordedPlan := ⟨objectsToCreate, objectsToModify, objectsToDelete, linksToCreate,
    linksToDelete, readSetVersions, criteriaReadExpectations⟩
  validateEditPlan plan.edits
  return plan

/-! ### What the reader asks of a plan -/

def RecordedCreate.IsStorable (item : RecordedCreate) : Prop :=
  item.operationKey ≠ "" ∧ item.ruleId ≠ "" ∧ item.objectType ≠ ""

def RecordedModify.IsStorable (item : RecordedModify) : Prop :=
  item.operationKey ≠ "" ∧ item.ruleId ≠ "" ∧ item.objectType ≠ "" ∧ item.objectId ≠ "" ∧
    0 ≤ item.expectedVersion

def RecordedDelete.IsStorable (item : RecordedDelete) : Prop :=
  item.operationKey ≠ "" ∧ item.ruleId ≠ "" ∧ item.objectType ≠ "" ∧ item.objectId ≠ "" ∧
    0 ≤ item.expectedVersion

def RecordedLink.IsStorable (item : RecordedLink) : Prop :=
  item.operationKey ≠ "" ∧ item.ruleId ≠ "" ∧ item.linkType ≠ "" ∧ item.sourceObjectId ≠ "" ∧
    item.targetObjectId ≠ ""

def CriteriaReadExpectation.IsStorable (item : CriteriaReadExpectation) : Prop :=
  item.direction ∈ ["incoming", "outgoing"] ∧ item.aggregation ∈ ["values", "count"] ∧
    item.referenceKey ≠ "" ∧ item.linkType ≠ "" ∧ item.anchorObjectType ≠ "" ∧
    item.anchorObjectId ≠ "" ∧ item.linkedObjectType ≠ "" ∧ item.propertyName ≠ "" ∧
    item.snapshotFingerprint ≠ ""

/-- No empty text where the reader reads one, no negative version, criteria it knows. -/
structure RecordedPlan.IsStorable (plan : RecordedPlan) : Prop where
  objectsToCreate : ∀ item ∈ plan.objectsToCreate, item.IsStorable
  objectsToModify : ∀ item ∈ plan.objectsToModify, item.IsStorable
  objectsToDelete : ∀ item ∈ plan.objectsToDelete, item.IsStorable
  linksToCreate : ∀ item ∈ plan.linksToCreate, item.IsStorable
  linksToDelete : ∀ item ∈ plan.linksToDelete, item.IsStorable
  readSetVersions : ∀ entry ∈ plan.readSetVersions.entries, 0 ≤ entry.2
  criteria : ∀ item ∈ plan.criteriaReadExpectations, item.IsStorable

/-! ### One record -/

@[simp]
theorem requireText_eq_ok_iff {key value value' : String} :
    requireText key value = .ok value' ↔ value ≠ "" ∧ value = value' := by
  rw [requireText]
  split_ifs with h <;> simp [h]

@[simp]
theorem requireVersion_eq_ok_iff {message detailKey key : String} {value value' : ℤ} :
    requireVersion message detailKey key value = .ok value' ↔ 0 ≤ value ∧ value = value' := by
  rw [requireVersion]
  split_ifs with h
  · simp [h]
  · simp [not_lt.mp h]

theorem ofList_entries {κ β : Type} [LinearOrder κ] (d : Dict κ β) : Dict.ofList d.entries = d :=
  Dict.ext_get? fun k => Dict.get?_ofList d.entries k

theorem readObjectCreate_manifest_iff (item found : RecordedCreate) :
    readObjectCreate item.manifest = .ok found ↔ item.IsStorable ∧ found = item := by
  have hread : readObjectCreate item.manifest = (do
      let operationKey ← requireText "operationKey" item.operationKey
      let ruleId ← requireText "ruleId" item.ruleId
      let objectType ← requireText "objectType" item.objectType
      return ⟨operationKey, ruleId, objectType, item.primaryKey,
        Dict.ofList item.properties.entries⟩) := rfl
  rw [hread]
  simp [ofList_entries, RecordedCreate.IsStorable, and_assoc, eq_comm (a := found)]

theorem readObjectModify_manifest_iff (item found : RecordedModify) :
    readObjectModify item.manifest = .ok found ↔ item.IsStorable ∧ found = item := by
  have hread : readObjectModify item.manifest = (do
      let operationKey ← requireText "operationKey" item.operationKey
      let ruleId ← requireText "ruleId" item.ruleId
      let objectType ← requireText "objectType" item.objectType
      let objectId ← requireText "objectId" item.objectId
      let expectedVersion ← requireVersion "Action plan manifest version is invalid" "field"
        "expectedObjectVersion" item.expectedVersion
      return ⟨operationKey, ruleId, objectType, objectId, expectedVersion,
        Dict.ofList item.patch.entries, item.shouldCreateIfAbsent⟩) := rfl
  rw [hread]
  simp [ofList_entries, RecordedModify.IsStorable, and_assoc, eq_comm (a := found)]

theorem readObjectDelete_manifest_iff (item found : RecordedDelete) :
    readObjectDelete item.manifest = .ok found ↔ item.IsStorable ∧ found = item := by
  have hread : readObjectDelete item.manifest = (do
      let operationKey ← requireText "operationKey" item.operationKey
      let ruleId ← requireText "ruleId" item.ruleId
      let objectType ← requireText "objectType" item.objectType
      let objectId ← requireText "objectId" item.objectId
      let expectedVersion ← requireVersion "Action plan manifest version is invalid" "field"
        "expectedObjectVersion" item.expectedVersion
      return ⟨operationKey, ruleId, objectType, objectId, expectedVersion⟩) := rfl
  rw [hread]
  simp [RecordedDelete.IsStorable, and_assoc, eq_comm (a := found)]

theorem readLink_manifest_iff (item found : RecordedLink) :
    readLink item.manifest = .ok found ↔ item.IsStorable ∧ found = item := by
  have hread : readLink item.manifest = (do
      let operationKey ← requireText "operationKey" item.operationKey
      let ruleId ← requireText "ruleId" item.ruleId
      let linkType ← requireText "linkType" item.linkType
      let sourceObjectId ← requireText "sourceObjectId" item.sourceObjectId
      let targetObjectId ← requireText "targetObjectId" item.targetObjectId
      return ⟨operationKey, ruleId, linkType, sourceObjectId, targetObjectId⟩) := rfl
  rw [hread]
  simp [RecordedLink.IsStorable, and_assoc, eq_comm (a := found)]

theorem readCriteria_manifest_iff (item found : CriteriaReadExpectation) :
    readCriteria item.manifest = .ok found ↔ item.IsStorable ∧ found = item := by
  have hread : readCriteria item.manifest = (do
      let direction ← requireText "direction" item.direction
      let aggregation ← requireText "aggregation" item.aggregation
      rejectIf (direction ∉ ["incoming", "outgoing"]) "Action criteria read direction is invalid"
      rejectIf (aggregation ∉ ["values", "count"]) "Action criteria read aggregation is invalid"
      let referenceKey ← requireText "referenceKey" item.referenceKey
      let linkType ← requireText "linkType" item.linkType
      let anchorObjectType ← requireText "anchorObjectType" item.anchorObjectType
      let anchorObjectId ← requireText "anchorObjectId" item.anchorObjectId
      let linkedObjectType ← requireText "linkedObjectType" item.linkedObjectType
      let propertyName ← requireText "property" item.propertyName
      let snapshotFingerprint ← requireText "snapshotFingerprint" item.snapshotFingerprint
      return ⟨referenceKey, linkType, direction, anchorObjectType, anchorObjectId,
        linkedObjectType, propertyName, aggregation, snapshotFingerprint⟩) := rfl
  have hne {text : String} {known : List String} (h : text ∈ known) (hknown : "" ∉ known) :
      text ≠ "" := fun heq => hknown (heq ▸ h)
  rw [hread]
  simp only [Except.bind_eq_ok_iff, requireText_eq_ok_iff, rejectIf_eq_ok_iff, not_not,
    Except.pure_eq_ok_iff, CriteriaReadExpectation.IsStorable]
  constructor
  · rintro ⟨_, ⟨-, rfl⟩, _, ⟨-, rfl⟩, -, hdirection, -, haggregation, _, ⟨hkey, rfl⟩, _, ⟨hlink, rfl⟩,
      _, ⟨htype, rfl⟩, _, ⟨hid, rfl⟩, _, ⟨hlinked, rfl⟩, _, ⟨hproperty, rfl⟩, _, ⟨hprint, rfl⟩, rfl⟩
    exact ⟨⟨hdirection, haggregation, hkey, hlink, htype, hid, hlinked, hproperty, hprint⟩, rfl⟩
  · rintro ⟨⟨hdirection, haggregation, hkey, hlink, htype, hid, hlinked, hproperty, hprint⟩, rfl⟩
    exact ⟨_, ⟨hne hdirection (by decide), rfl⟩, _, ⟨hne haggregation (by decide), rfl⟩, (),
      hdirection, (), haggregation, _, ⟨hkey, rfl⟩, _, ⟨hlink, rfl⟩, _, ⟨htype, rfl⟩, _,
      ⟨hid, rfl⟩, _, ⟨hlinked, rfl⟩, _, ⟨hproperty, rfl⟩, _, ⟨hprint, rfl⟩, rfl⟩

/-! ### The whole plan -/

/-- What is written item by item is read back item by item, and as it was. -/
theorem mapM_eq_ok_iff_of_read {α β : Type} {write : α → β} {read : β → Checked α}
    {items found : List α} {IsStorable : α → Prop}
    (hread : ∀ item found, read (write item) = .ok found ↔ IsStorable item ∧ found = item) :
    (items.map write).mapM read = .ok found ↔
      (∀ item ∈ items, IsStorable item) ∧ found = items := by
  simp only [List.mapM_eq_ok_iff, List.forall₂_map_left_iff, hread]
  constructor
  · intro h
    have hsame : items = found := by
      rw [← List.forall₂_eq_eq_eq]
      exact h.imp fun _ _ hitem => hitem.2.symm
    subst hsame
    exact ⟨fun item hitem => (List.forall₂_same.mp h item hitem).1, rfl⟩
  · rintro ⟨hstorable, rfl⟩
    exact List.forall₂_same.mpr fun item hitem => ⟨hstorable item hitem, rfl⟩

theorem readRecords_eq_ok_iff {α : Type} {manifest : Mapping} {key : String}
    {write : α → Mapping} {read : Mapping → Checked α} {items found : List α}
    {IsStorable : α → Prop} (hitems : manifest.lookup key = some (manifestItems write items))
    (hread : ∀ item found, read (write item) = .ok found ↔ IsStorable item ∧ found = item) :
    readRecords read manifest key = .ok found ↔
      (∀ item ∈ items, IsStorable item) ∧ found = items := by
  have hfound : readItems manifest key = .ok (items.map write) := by
    rw [readItems, hitems]
    change (items.map fun item => Json.obj (write item)).mapM _ = _
    rw [List.mapM_eq_ok_iff, List.forall₂_map_left_iff, List.forall₂_map_right_iff,
      List.forall₂_same]
    exact fun item _ => rfl
  rw [readRecords, hfound]
  exact mapM_eq_ok_iff_of_read hread

/-- The criteria of a manifest are left out when there are none. -/
theorem readRecords_criteria_iff (plan : RecordedPlan) (found : List CriteriaReadExpectation) :
    readRecords readCriteria (editPlanManifest plan) "criteriaReadSet" = .ok found ↔
      (∀ item ∈ plan.criteriaReadExpectations, item.IsStorable) ∧
        found = plan.criteriaReadExpectations := by
  by_cases hnone : plan.criteriaReadExpectations = []
  · have hmissing : (editPlanManifest plan).lookup "criteriaReadSet" = none := by
      simp only [editPlanManifest, if_pos hnone]
      rfl
    simp only [readRecords, readItems, hmissing, hnone, pure_bind, List.mapM_nil,
      Except.pure_eq_ok_iff, List.not_mem_nil, false_implies, implies_true, true_and]
    exact eq_comm
  · apply readRecords_eq_ok_iff _ readCriteria_manifest_iff
    simp only [editPlanManifest, if_neg hnone]
    rfl

theorem readVersion_manifest_iff (entry found : String × ℤ) :
    readVersion (entry.1, .int entry.2) = .ok found ↔ 0 ≤ entry.2 ∧ found = entry := by
  obtain ⟨key, value⟩ := entry
  simp only [readVersion, Except.bind_eq_ok_iff, requireVersion_eq_ok_iff, Except.pure_eq_ok_iff]
  constructor
  · rintro ⟨_, ⟨hnonneg, rfl⟩, rfl⟩
    exact ⟨hnonneg, rfl⟩
  · rintro ⟨hnonneg, rfl⟩
    exact ⟨value, ⟨hnonneg, rfl⟩, rfl⟩

theorem readVersions_manifest_iff (versions found : Dict String ℤ) :
    readVersions (some (.obj (versions.entries.map fun e => (e.1, .int e.2)))) = .ok found ↔
      (∀ entry ∈ versions.entries, 0 ≤ entry.2) ∧ found = versions := by
  have hfields : readVersions (some (.obj (versions.entries.map fun e => (e.1, .int e.2)))) =
      (do
        let found ← (versions.entries.map fun e => (e.1, .int e.2)).mapM readVersion
        return Dict.ofList found) := by
    cases hentries : versions.entries with
    | nil => rfl
    | cons entry entries => rfl
  rw [hfields, bind_pure_comp, Except.map_eq_ok_iff]
  simp only [mapM_eq_ok_iff_of_read readVersion_manifest_iff]
  constructor
  · rintro ⟨_, ⟨hstorable, rfl⟩, rfl⟩
    exact ⟨hstorable, ofList_entries versions⟩
  · rintro ⟨hstorable, rfl⟩
    exact ⟨_, ⟨hstorable, rfl⟩, ofList_entries found⟩

/-- **What the reader returns** for the manifest of a checked plan, if it returns anything, is the
plan, and it returns it where the plan is storable. -/
theorem editPlanFromManifest_eq_ok_iff {plan found : RecordedPlan}
    (hvalid : validateEditPlan plan.edits = .ok ()) :
    editPlanFromManifest (editPlanManifest plan) = .ok found ↔ plan.IsStorable ∧ found = plan := by
  have hcreates : ∀ found, readRecords readObjectCreate (editPlanManifest plan) "objectCreates" =
      .ok found ↔ (∀ item ∈ plan.objectsToCreate, item.IsStorable) ∧ found = plan.objectsToCreate :=
    fun _ => readRecords_eq_ok_iff rfl readObjectCreate_manifest_iff
  have hmodifies : ∀ found, readRecords readObjectModify (editPlanManifest plan) "objectModifies" =
      .ok found ↔ (∀ item ∈ plan.objectsToModify, item.IsStorable) ∧ found = plan.objectsToModify :=
    fun _ => readRecords_eq_ok_iff rfl readObjectModify_manifest_iff
  have hdeletes : ∀ found, readRecords readObjectDelete (editPlanManifest plan) "objectDeletes" =
      .ok found ↔ (∀ item ∈ plan.objectsToDelete, item.IsStorable) ∧ found = plan.objectsToDelete :=
    fun _ => readRecords_eq_ok_iff rfl readObjectDelete_manifest_iff
  have hlinks : ∀ found, readRecords readLink (editPlanManifest plan) "linkCreates" =
      .ok found ↔ (∀ item ∈ plan.linksToCreate, item.IsStorable) ∧ found = plan.linksToCreate :=
    fun _ => readRecords_eq_ok_iff rfl readLink_manifest_iff
  have hunlinks : ∀ found, readRecords readLink (editPlanManifest plan) "linkDeletes" =
      .ok found ↔ (∀ item ∈ plan.linksToDelete, item.IsStorable) ∧ found = plan.linksToDelete :=
    fun _ => readRecords_eq_ok_iff rfl readLink_manifest_iff
  have hversions : ∀ found, readVersions ((editPlanManifest plan).lookup "readSetVersions") =
      .ok found ↔ (∀ entry ∈ plan.readSetVersions.entries, 0 ≤ entry.2) ∧
        found = plan.readSetVersions := readVersions_manifest_iff plan.readSetVersions
  simp only [editPlanFromManifest, Except.bind_eq_ok_iff, Except.pure_eq_ok_iff, hcreates, hmodifies,
    hdeletes, hlinks, hunlinks, hversions, readRecords_criteria_iff]
  constructor
  · rintro ⟨_, ⟨h₁, rfl⟩, _, ⟨h₂, rfl⟩, _, ⟨h₃, rfl⟩, _, ⟨h₄, rfl⟩, _, ⟨h₅, rfl⟩, _, ⟨h₆, rfl⟩, _,
      ⟨h₇, rfl⟩, -, -, rfl⟩
    exact ⟨⟨h₁, h₂, h₃, h₄, h₅, h₆, h₇⟩, rfl⟩
  · rintro ⟨⟨h₁, h₂, h₃, h₄, h₅, h₆, h₇⟩, rfl⟩
    exact ⟨_, ⟨h₁, rfl⟩, _, ⟨h₂, rfl⟩, _, ⟨h₃, rfl⟩, _, ⟨h₄, rfl⟩, _, ⟨h₅, rfl⟩, _, ⟨h₆, rfl⟩, _,
      ⟨h₇, rfl⟩, (), hvalid, rfl⟩

/-- **Round trip.** A checked plan is rebuilt from its manifest as it was, exactly when it is
storable, and a plan that is not is refused. -/
theorem editPlanFromManifest_editPlanManifest_iff (plan : RecordedPlan)
    (hvalid : validateEditPlan plan.edits = .ok ()) :
    (editPlanFromManifest (editPlanManifest plan) = .ok plan ↔ plan.IsStorable) ∧
      (¬ plan.IsStorable → ∃ error, editPlanFromManifest (editPlanManifest plan) = .error error) := by
  refine ⟨by simp [editPlanFromManifest_eq_ok_iff hvalid], fun hnot => ?_⟩
  cases hread : editPlanFromManifest (editPlanManifest plan) with
  | error error => exact ⟨error, rfl⟩
  | ok found => exact absurd ((editPlanFromManifest_eq_ok_iff hvalid).mp hread).1 hnot

/-! ### A plan that is rebuilt, and one that is not -/

/-- Close ticket `t-1`, read at version 3, and link it to its owner. -/
def closeTicket : RecordedPlan where
  objectsToModify := [⟨"modify-0", "close", "Ticket", "t-1", 3,
    Dict.ofList [("status", .str "closed"), ("tags", .arr [.null, .int 2])], false⟩]
  linksToCreate := [⟨"link-0", "close", "ticketOwner", "t-1", "u-1"⟩]
  readSetVersions := Dict.ofList [("Ticket:t-1", 3)]
  criteriaReadExpectations :=
    [⟨"owner", "ticketOwner", "outgoing", "Ticket", "t-1", "User", "name", "values", "f-1"⟩]

theorem closeTicket_rebuilt :
    editPlanFromManifest (editPlanManifest closeTicket) = .ok closeTicket :=
  (editPlanFromManifest_editPlanManifest_iff closeTicket (by decide)).1.mpr
    ⟨by simp [closeTicket], by simp [closeTicket, RecordedModify.IsStorable],
      by simp [closeTicket], by simp [closeTicket, RecordedLink.IsStorable], by simp [closeTicket],
      by decide, by simp [closeTicket, CriteriaReadExpectation.IsStorable]⟩

/-- A link from an object with an empty id. -/
def linkFromEmptyId : RecordedPlan where
  linksToCreate := [⟨"link-0", "close", "ticketOwner", "", "u-1"⟩]

/-- The checks of a plan do not read object ids. -/
theorem not_rebuilt_linkFromEmptyId :
    validateEditPlan linkFromEmptyId.edits = .ok () ∧
      editPlanFromManifest (editPlanManifest linkFromEmptyId) =
        validationFailed "Action plan manifest text field is invalid"
          [("field", .str "sourceObjectId")] :=
  ⟨by decide, by decide⟩

end FoundryLite.Actions
