import FoundryLite.Errors
import Mathlib.Data.List.Sort

/-!
# Erasure manifests and certificates

The resources that a subject is found in become the actions of a manifest, one for each resource and one
for the audit record, and an executor answers each action with a receipt. The certificate is built from
the receipts: a receipt is looked up under the key of each action, and the numbers are compared.

The key has no tenant, and the lookup keeps the last receipt of a key.
-/

namespace FoundryLite.Security.Erasure

/-- `ErasureResourceType`. -/
inductive ResourceType where
  | datasetRow
  | objectRecord
  | searchDocument
  | materializationRow
  | deadLetterRecord
  | backupSnapshot
  | auditEvent
  deriving DecidableEq

def ResourceType.text : ResourceType → String
  | datasetRow => "dataset_row"
  | objectRecord => "object_record"
  | searchDocument => "search_document"
  | materializationRow => "materialization_row"
  | deadLetterRecord => "dead_letter_record"
  | backupSnapshot => "backup_snapshot"
  | auditEvent => "audit_event"

/-- `ErasureActionType`. -/
inductive ActionType where
  | redactDatasetRow
  | tombstoneObject
  | removeSearchDocument
  | rebuildMaterialization
  | redactDeadLetterPayload
  | deferBackupExpiration
  | minimizeAuditEvidence
  deriving DecidableEq

def ActionType.text : ActionType → String
  | redactDatasetRow => "redact_dataset_row"
  | tombstoneObject => "tombstone_object"
  | removeSearchDocument => "remove_search_document"
  | rebuildMaterialization => "rebuild_materialization"
  | redactDeadLetterPayload => "redact_dead_letter_payload"
  | deferBackupExpiration => "defer_backup_expiration"
  | minimizeAuditEvidence => "minimize_audit_evidence"

inductive ActionStatus where
  | ready
  | deferred
  deriving DecidableEq

def ActionStatus.text : ActionStatus → String
  | ready => "READY"
  | deferred => "DEFERRED"

inductive ReceiptStatus where
  | applied
  | deferred
  deriving DecidableEq

def ReceiptStatus.text : ReceiptStatus → String
  | applied => "APPLIED"
  | deferred => "DEFERRED"

inductive ManifestStatus where
  | readyToApply
  | pendingRetention
  deriving DecidableEq

def ManifestStatus.text : ManifestStatus → String
  | readyToApply => "READY_TO_APPLY"
  | pendingRetention => "PENDING_RETENTION"

inductive CertificateStatus where
  | certified
  | certifiedWithDeferredWork
  deriving DecidableEq

structure ErasureRequest where
  tenantId : String
  requestId : String
  subjectKind : String
  subjectValue : Json
  requestedBy : String
  idempotencyKey : String
  reason : String
  requestedAt : String
  subjectTokenSecret : String
  subjectTokenKeyId : String

structure ErasureResourceRef where
  tenantId : String
  resourceType : ResourceType
  resourceId : String
  surface : String
  deriving DecidableEq

/-- Resources of the tenant of the request: others are refused when the resolution is made. -/
structure ErasureResolution where
  request : ErasureRequest
  resources : List ErasureResourceRef
  sameTenant : ∀ ref ∈ resources, ref.tenantId = request.tenantId

structure ErasureRetentionPolicy where
  backupRetentionUntil : String
  cryptoShreddingKeyRef : String
  auditRetentionBasis : String
  minimumAuditFields : List String

structure ErasureManifestAction where
  actionType : ActionType
  resource : ErasureResourceRef
  status : ActionStatus
  reason : String
  evidence : Mapping

structure ErasureManifest where
  manifestId : String
  tenantId : String
  requestId : String
  subjectHash : String
  subjectTokenKeyId : String
  status : ManifestStatus
  actions : List ErasureManifestAction

structure ErasureActionReceipt where
  actionType : ActionType
  resource : ErasureResourceRef
  status : ReceiptStatus
  completedAt : String
  evidence : Mapping

structure ErasureCertificate where
  certificateId : String
  manifestId : String
  tenantId : String
  requestId : String
  subjectHash : String
  subjectTokenKeyId : String
  status : CertificateStatus
  certifiedAt : String
  certifiedBy : String
  receipts : List ErasureActionReceipt

/-- What the standard library makes of a payload: the keyed digest of a subject under a secret and a key
id, and the name-based UUID. -/
structure Tokens where
  hmacToken : Mapping → String → String → String
  uuid5 : Mapping → String

/-! ### Evidence -/

/-- `subject_hash`, which is refused without a secret. -/
def ErasureRequest.subjectHash (tokens : Tokens) (request : ErasureRequest) : Except String String :=
  if request.subjectTokenSecret = "" then throw "erasure subject token secret is required"
  else pure (tokens.hmacToken [("tenantId", .str request.tenantId),
    ("subjectKind", .str request.subjectKind), ("subjectValue", request.subjectValue)]
    request.subjectTokenSecret request.subjectTokenKeyId)

/-- `ErasureRequest.redacted_evidence`. -/
def ErasureRequest.redactedEvidence (request : ErasureRequest) (subjectHash : String) : Json :=
  .obj [("tenantId", .str request.tenantId), ("requestId", .str request.requestId),
    ("subjectKind", .str request.subjectKind), ("subjectValue", .str "***PROTECTED***"),
    ("subjectHash", .str subjectHash), ("subjectTokenKeyId", .str request.subjectTokenKeyId),
    ("requestedBy", .str request.requestedBy), ("idempotencyKey", .str request.idempotencyKey),
    ("reason", .str request.reason), ("requestedAt", .str request.requestedAt)]

def ErasureResourceRef.manifestPayload (ref : ErasureResourceRef) : Json :=
  .obj [("tenantId", .str ref.tenantId), ("resourceType", .str ref.resourceType.text),
    ("resourceId", .str ref.resourceId), ("surface", .str ref.surface)]

def ErasureManifestAction.redactedEvidence (action : ErasureManifestAction) : Json :=
  .obj [("actionType", .str action.actionType.text), ("resource", action.resource.manifestPayload),
    ("status", .str action.status.text), ("reason", .str action.reason),
    ("evidence", .obj action.evidence)]

def ErasureManifest.redactedEvidence (manifest : ErasureManifest) : Json :=
  .obj [("manifestId", .str manifest.manifestId), ("tenantId", .str manifest.tenantId),
    ("requestId", .str manifest.requestId), ("subjectHash", .str manifest.subjectHash),
    ("subjectTokenKeyId", .str manifest.subjectTokenKeyId), ("status", .str manifest.status.text),
    ("actions", .arr (manifest.actions.map ErasureManifestAction.redactedEvidence))]

def ErasureActionReceipt.redactedEvidence (receipt : ErasureActionReceipt) : Json :=
  .obj [("actionType", .str receipt.actionType.text), ("resource", receipt.resource.manifestPayload),
    ("status", .str receipt.status.text), ("completedAt", .str receipt.completedAt),
    ("evidence", .obj receipt.evidence)]

/-! ### The manifest -/

/-- Equality of requests, which compares the subject values as the language does. -/
def ErasureRequest.Same (a b : ErasureRequest) : Prop :=
  a.tenantId = b.tenantId ∧ a.requestId = b.requestId ∧ a.subjectKind = b.subjectKind ∧
    Json.PyEq a.subjectValue b.subjectValue ∧ a.requestedBy = b.requestedBy ∧
      a.idempotencyKey = b.idempotencyKey ∧ a.reason = b.reason ∧ a.requestedAt = b.requestedAt ∧
        a.subjectTokenSecret = b.subjectTokenSecret ∧ a.subjectTokenKeyId = b.subjectTokenKeyId

instance (a b : ErasureRequest) : Decidable (a.Same b) := by
  unfold ErasureRequest.Same
  infer_instance

/-- `_resource_sort_key`: tuples of texts compare as lists of them. -/
def resourceSortKey (ref : ErasureResourceRef) : List String :=
  [ref.resourceType.text, ref.surface, ref.resourceId, ref.tenantId]

/-- `_resources_for_request`. -/
def resourcesForRequest (request : ErasureRequest) (resolutions : List ErasureResolution) :
    Except String (List ErasureResourceRef) := do
  let resources ← resolutions.mapM fun resolution =>
    if resolution.request.Same request then pure resolution.resources
    else throw "erasure manifest cannot mix resolutions for different requests"
  pure (resources.flatten.insertionSort fun a b => resourceSortKey a ≤ resourceSortKey b)

/-- `_action_type`. -/
def actionTypeOf : ResourceType → ActionType
  | .datasetRow => .redactDatasetRow
  | .objectRecord => .tombstoneObject
  | .searchDocument => .removeSearchDocument
  | .materializationRow => .rebuildMaterialization
  | .deadLetterRecord => .redactDeadLetterPayload
  | .backupSnapshot => .deferBackupExpiration
  | .auditEvent => .minimizeAuditEvidence

/-- The evidence that every action carries. -/
def requestEvidence (request : ErasureRequest) (subjectHash : String) : Mapping :=
  [("requestId", .str request.requestId), ("subjectHash", .str subjectHash),
    ("subjectTokenKeyId", .str request.subjectTokenKeyId)]

/-- `_action_for_resource`, with the actions that it defers. -/
def actionForResource (request : ErasureRequest) (subjectHash : String)
    (policy : ErasureRetentionPolicy) (resource : ErasureResourceRef) : ErasureManifestAction :=
  match resource.resourceType with
  | .backupSnapshot =>
    ⟨.deferBackupExpiration, resource, .deferred, "backup_retention_window_active",
      requestEvidence request subjectHash ++ [("retentionUntil", .str policy.backupRetentionUntil),
        ("cryptoShreddingKeyRef", .str policy.cryptoShreddingKeyRef)]⟩
  | .datasetRow =>
    ⟨.redactDatasetRow, resource, .deferred, "deferred_to_redaction_maintenance",
      requestEvidence request subjectHash⟩
  | .materializationRow =>
    ⟨.rebuildMaterialization, resource, .deferred, "deferred_to_rebuild_maintenance",
      requestEvidence request subjectHash⟩
  | resourceType =>
    ⟨actionTypeOf resourceType, resource, .ready, "subject_erasure_requested",
      requestEvidence request subjectHash⟩

/-- `_audit_minimization_action`. -/
def auditMinimizationAction (request : ErasureRequest) (subjectHash : String)
    (policy : ErasureRetentionPolicy) : ErasureManifestAction :=
  ⟨.minimizeAuditEvidence, ⟨request.tenantId, .auditEvent, request.requestId, "audit_events"⟩, .ready,
    "retain_minimum_legal_audit_evidence",
    requestEvidence request subjectHash ++ [("auditRetentionBasis", .str policy.auditRetentionBasis),
      ("minimumFields", .arr (policy.minimumAuditFields.map Json.str))]⟩

/-- The key of an action and of a receipt: `_action_sort_key`, `_receipt_sort_key` and `_receipt_key` are
made of the same fields, and none has the tenant. -/
structure Key where
  actionType : ActionType
  resourceType : ResourceType
  surface : String
  resourceId : String
  deriving DecidableEq

def Key.texts (key : Key) : List String :=
  [key.actionType.text, key.resourceType.text, key.surface, key.resourceId]

/-- `_receipt_key`. -/
def receiptKey (actionType : ActionType) (resource : ErasureResourceRef) : Key :=
  ⟨actionType, resource.resourceType, resource.surface, resource.resourceId⟩

def ErasureManifestAction.key (action : ErasureManifestAction) : Key :=
  receiptKey action.actionType action.resource

def ErasureActionReceipt.key (receipt : ErasureActionReceipt) : Key :=
  receiptKey receipt.actionType receipt.resource

/-- `_has_deferred_action`. -/
def hasDeferredAction (actions : List ErasureManifestAction) : Bool :=
  actions.any fun action => action.status = .deferred

/-- `build_erasure_manifest`. -/
def buildErasureManifest (tokens : Tokens) (request : ErasureRequest)
    (resolutions : List ErasureResolution) (policy : ErasureRetentionPolicy) :
    Except String ErasureManifest := do
  let resources ← resourcesForRequest request resolutions
  let subjectHash ← request.subjectHash tokens
  let actions := (resources.map (actionForResource request subjectHash policy) ++
    [auditMinimizationAction request subjectHash policy]).insertionSort
      fun a b => a.key.texts ≤ b.key.texts
  pure
    { manifestId := "erase_manifest_" ++ tokens.uuid5 [("request", request.redactedEvidence subjectHash),
        ("actions", .arr (actions.map ErasureManifestAction.redactedEvidence)),
        ("retention", .obj [("backupRetentionUntil", .str policy.backupRetentionUntil),
          ("cryptoShreddingKeyRef", .str policy.cryptoShreddingKeyRef),
          ("auditRetentionBasis", .str policy.auditRetentionBasis),
          ("minimumAuditFields", .arr (policy.minimumAuditFields.map Json.str))])]
      tenantId := request.tenantId
      requestId := request.requestId
      subjectHash := subjectHash
      subjectTokenKeyId := request.subjectTokenKeyId
      status := if hasDeferredAction actions then .pendingRetention else .readyToApply
      actions := actions }

/-! ### The certificate -/

/-- The receipt that `receipt_by_key` holds: a later one takes the place of an earlier one. -/
def receiptByKey (receipts : List ErasureActionReceipt) (key : Key) : Option ErasureActionReceipt :=
  (receipts.filter fun receipt => receipt.key = key).getLast?

/-- The status that an action requires of its receipt. -/
def ErasureManifestAction.expectedStatus (action : ErasureManifestAction) : ReceiptStatus :=
  if action.status = .deferred then .deferred else .applied

/-- `_validate_receipt_status`. -/
def validateReceiptStatus (action : ErasureManifestAction) (receipt : ErasureActionReceipt) :
    Except String Unit :=
  if receipt.status ≠ action.expectedStatus then
    throw ("erasure receipt status must be " ++ action.expectedStatus.text ++ " for " ++
      action.actionType.text)
  else pure ()

/-- The check of one action in `_validate_action_receipts`. -/
def validateAction (receipts : List ErasureActionReceipt) (action : ErasureManifestAction) :
    Except String Unit :=
  match receiptByKey receipts action.key with
  | none => throw ("erasure certificate missing receipt for " ++ action.actionType.text ++ ":" ++
      action.resource.resourceId)
  | some receipt => validateReceiptStatus action receipt

/-- `_validate_action_receipts`. -/
def validateActionReceipts (actions : List ErasureManifestAction)
    (receipts : List ErasureActionReceipt) : Except String Unit := do
  actions.forM (validateAction receipts)
  if receipts.length ≠ actions.length then
    throw "erasure certificate contains receipts outside the manifest"
  else pure ()

/-- `build_erasure_certificate`. -/
def buildErasureCertificate (tokens : Tokens) (manifest : ErasureManifest)
    (receipts : List ErasureActionReceipt) (certifiedAt certifiedBy : String) :
    Except String ErasureCertificate := do
  let sortedReceipts := receipts.insertionSort fun a b => a.key.texts ≤ b.key.texts
  validateActionReceipts manifest.actions sortedReceipts
  pure
    { certificateId := "erase_cert_" ++ tokens.uuid5 [("manifest", manifest.redactedEvidence),
        ("receipts", .arr (sortedReceipts.map ErasureActionReceipt.redactedEvidence)),
        ("certifiedAt", .str certifiedAt), ("certifiedBy", .str certifiedBy)]
      manifestId := manifest.manifestId
      tenantId := manifest.tenantId
      requestId := manifest.requestId
      subjectHash := manifest.subjectHash
      subjectTokenKeyId := manifest.subjectTokenKeyId
      status := if sortedReceipts.any fun receipt => receipt.status = .deferred then
        .certifiedWithDeferredWork else .certified
      certifiedAt := certifiedAt
      certifiedBy := certifiedBy
      receipts := sortedReceipts }

end FoundryLite.Security.Erasure
