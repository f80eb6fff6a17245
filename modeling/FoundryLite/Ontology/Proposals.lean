import FoundryLite.Library.Runs
import FoundryLite.Library.Table
import FoundryLite.Library.Transaction
import FoundryLite.Ontology.MigrationChanges
import FoundryLite.Runtime.StatusCas

/-!
# Ontology proposals

A change of the ontology is proposed as a text, which its submitter may revise until an assigned
reviewer decides. An approved text is activated once, under a receipt, and the submitter may
withdraw the proposal until somebody starts to.

A request is a sequence of database transactions, between which others commit. A decision reads the
proposal in one, plans the migration in another and stores the decision in a third, whose update
looks at the status of the row only. An execution claims the row, activates the text, and records
that it did; when the second fails, it looks for a receipt before it records the failure.
-/

namespace FoundryLite.Proposals

open FoundryLite.Ontology (OntologyMigrationPlan)
open FoundryLite.Runtime (StatusTransition)

/-! ### Rows -/

inductive ReviewStatus where
  | pending | approved | rejected
  deriving DecidableEq

inductive ExecutionStatus where
  | pendingReview | executing | executed | failed | withdrawn
  deriving DecidableEq

/-- `ProposalDecision`. -/
inductive Decision where
  | approved | rejected
  deriving DecidableEq

def Decision.status : Decision → ReviewStatus
  | .approved => .approved
  | .rejected => .rejected

structure ValidationResult where
  migrationPlan : OntologyMigrationPlan
  objectTypeCount : ℕ
  linkTypeCount : ℕ
  actionTypeCount : ℕ

structure ActionProposal where
  title : String
  description : Option String
  yamlText : String
  /-- The plan and the counts of the validation at submission. -/
  validation : ValidationResult

/-- The plan of a decision: a rejection is stored even if the text does not validate any more. -/
inductive DecisionPlan where
  | plan (migrationPlan : OntologyMigrationPlan)
  | validationFailed (error : String)

structure DecisionRecord where
  decision : Decision
  comment : Option String
  decidedByUserId : String
  migrationPlan : DecisionPlan
  hasBlockedChanges : Bool

/-- `OntologyApplyResult`. -/
structure ApplyResult where
  ontologyVersionId : String
  versionNumber : ℤ
  migrationPlan : OntologyMigrationPlan

structure AppliedVersion extends ApplyResult where
  appliedByUserId : String

structure Proposal where
  id : String
  claimText : String
  status : ReviewStatus
  assigneeUserId : Option String
  actionProposal : ActionProposal
  proposalFingerprint : String
  executionStatus : ExecutionStatus
  approvedActionRunId : Option String
  createdByUserId : String
  createdIdempotencyKey : String
  assignmentIdempotencyKey : Option String
  decision : Option DecisionRecord
  /-- The number of revisions and who made the last. -/
  revision : Option (ℕ × String)
  appliedOntologyVersion : Option AppliedVersion
  /-- The reason of a withdrawal and who withdrew. -/
  withdrawal : Option (Option String × String)
  executionError : Option String

/-- The receipt of an activation, an event of the outbox under a key of its own. -/
structure Receipt where
  definitionFingerprint : String
  result : ApplyResult

/-- An activation that was committed for a proposal. -/
structure Activation where
  proposalId : String
  yamlText : String

/-- What the request that approved a proposal named. -/
structure Approval where
  proposalId : String
  expectedFingerprint : String

/-- The rows of one tenant, by which every lookup is qualified. -/
structure Store (ω : Type) where
  proposals : Table Proposal.id Proposal.createdIdempotencyKey
  receipts : String → Option Receipt
  ontology : ω
  /-- What was activated for proposals, newest first. -/
  activations : List Activation
  /-- The requests whose approval was stored, newest first. -/
  approvals : List Approval

abbrev Tx (ω α : Type) := Transaction FoundryLiteError (Store ω) α

/-- What the rules leave to the ontology and to the standard library. -/
structure Environment (ω : Type) where
  yamlFingerprint : String → String
  validateYamlText : ω → String → Checked ValidationResult
  /-- `activation_fingerprint` of the definition that a text loads to. -/
  definitionFingerprint : String → Checked String
  applyLoadedOntology : ω → String → Checked (ApplyResult × ω)
  scrubErrorText : String → String
  /-- The profile asks for a reviewer other than the submitter. -/
  isProtected : Bool

variable {ω : Type}

/-! ### Conditional updates -/

abbrev Update := Table.Update Proposal.id Proposal.createdIdempotencyKey

/-- The update of the rows that meet a guard. -/
def Update.when (guard : Proposal → Bool) (values : Update) : Update where
  apply row := if guard row then values.apply row else row
  pk_apply row := by
    split_ifs
    · exact values.pk_apply row
    · rfl
  uq_apply row := by
    split_ifs
    · exact values.uq_apply row
    · rfl

/-- A conditional update of one row: the row as updated, or nothing when it does not apply. -/
def guardedUpdate (proposalId : String) (guard : Proposal → Bool) (values : Update) :
    Tx ω (Option Proposal) := do
  let row := (← get).proposals.rows.find? fun row => row.id = proposalId && guard row
  modify fun store => { store with
    proposals := store.proposals.updateRow proposalId (values.when guard) }
  pure (row.map values.apply)

def assignValues (assigneeUserId assignmentIdempotencyKey : String) : Update where
  apply row := { row with assigneeUserId := some assigneeUserId
                          assignmentIdempotencyKey := some assignmentIdempotencyKey }
  pk_apply _ := rfl
  uq_apply _ := rfl

def assignReview (proposalId assigneeUserId assignmentIdempotencyKey : String)
    (isUnassignedOnly : Bool) : Tx ω (Option Proposal) :=
  guardedUpdate proposalId
    (fun row => row.status = .pending && (!isUnassignedOnly || row.assigneeUserId.isNone))
    (assignValues assigneeUserId assignmentIdempotencyKey)

def reviewDecided (decision : Decision) : StatusTransition ReviewStatus :=
  ⟨[.pending], decision.status⟩

def decisionValues (record : DecisionRecord) : Update where
  apply row := { row with status := (reviewDecided record.decision).toStatus
                          decision := some record }
  pk_apply _ := rfl
  uq_apply _ := rfl

/-- Only the status of the row is a condition. -/
def decideReview (proposalId : String) (record : DecisionRecord) : Tx ω (Option Proposal) :=
  guardedUpdate proposalId (fun row => row.status ∈ (reviewDecided record.decision).fromStatuses)
    (decisionValues record)

def contentValues (proposalFingerprint claimText : String) (actionProposal : ActionProposal)
    (revision : ℕ × String) : Update where
  apply row := { row with claimText, actionProposal, proposalFingerprint, revision := some revision }
  pk_apply _ := rfl
  uq_apply _ := rfl

def updateProposalContent (proposalId expectedFingerprint proposalFingerprint claimText : String)
    (actionProposal : ActionProposal) (revision : ℕ × String) : Tx ω (Option Proposal) :=
  guardedUpdate proposalId
    (fun row => row.status = .pending && row.executionStatus = .pendingReview &&
      row.proposalFingerprint = expectedFingerprint)
    (contentValues proposalFingerprint claimText actionProposal revision)

def proposalWithdrawn : StatusTransition ReviewStatus := ⟨[.pending, .approved], .rejected⟩

def withdrawalValues (withdrawal : Option String × String) : Update where
  apply row := { row with status := proposalWithdrawn.toStatus, executionStatus := .withdrawn
                          withdrawal := some withdrawal }
  pk_apply _ := rfl
  uq_apply _ := rfl

def withdrawReview (proposalId : String) (withdrawal : Option String × String) :
    Tx ω (Option Proposal) :=
  guardedUpdate proposalId
    (fun row => row.status ∈ proposalWithdrawn.fromStatuses &&
      row.executionStatus = .pendingReview)
    (withdrawalValues withdrawal)

def startedValues : Update where
  apply row := { row with executionStatus := .executing }
  pk_apply _ := rfl
  uq_apply _ := rfl

def markExecutionStarted (proposalId : String) : Tx ω (Option Proposal) :=
  guardedUpdate proposalId
    (fun row => row.status = .approved && row.executionStatus = .pendingReview) startedValues

def succeededValues (applied : AppliedVersion) : Update where
  apply row := { row with executionStatus := .executed
                          approvedActionRunId := some applied.ontologyVersionId
                          appliedOntologyVersion := some applied }
  pk_apply _ := rfl
  uq_apply _ := rfl

def markExecutionSucceeded (proposalId : String) (applied : AppliedVersion) :
    Tx ω (Option Proposal) :=
  guardedUpdate proposalId
    (fun row => row.status = .approved && row.executionStatus = .executing)
    (succeededValues applied)

def failedValues (error : String) : Update where
  apply row := { row with executionStatus := .failed, executionError := some error }
  pk_apply _ := rfl
  uq_apply _ := rfl

def markExecutionFailed (proposalId error : String) : Tx ω (Option Proposal) :=
  guardedUpdate proposalId (fun row => row.executionStatus = .executing) (failedValues error)

/-! ### Rules -/

inductive ProposalStatus where
  | submitted | inReview | approved | rejected | applied | withdrawn
  deriving DecidableEq

def proposalStatus (row : Proposal) : ProposalStatus :=
  if row.executionStatus = .withdrawn then .withdrawn
  else match row.status with
    | .pending => if row.assigneeUserId.any (· ≠ "") then .inReview else .submitted
    | .approved => if row.executionStatus = .executed then .applied else .approved
    | .rejected => .rejected

def ProposalStatus.text : ProposalStatus → String
  | .submitted => "submitted"
  | .inReview => "in_review"
  | .approved => "approved"
  | .rejected => "rejected"
  | .applied => "applied"
  | .withdrawn => "withdrawn"

/-- The details of a refusal that depends on what became of the proposal. -/
def statusDetails (row : Proposal) : Mapping :=
  [("proposal_id", .str row.id), ("status", .str (proposalStatus row).text)]

def requiredText (value name : String) : Checked Unit :=
  rejectIf (value = "") s!"{name} is required"

def refuseUnless (holds : Bool) (error : FoundryLiteError) : Checked Unit :=
  if holds then pure () else throw error

def requireFingerprintMatch (row : Proposal) (expectedFingerprint : String) : Checked Unit := do
  requiredText expectedFingerprint "expectedFingerprint"
  refuseUnless (row.proposalFingerprint = expectedFingerprint)
    (conflictDetected "ontology proposal fingerprint mismatch"
      [("proposal_id", .str row.id), ("expectedFingerprint", .str expectedFingerprint),
        ("proposalFingerprint", .str row.proposalFingerprint)])

def requireProposalUpdatable (row : Proposal) : Checked Unit :=
  refuseUnless
    (row.status = .pending && row.executionStatus = .pendingReview && row.decision.isNone)
    (conflictDetected "ontology proposal can no longer be updated" (statusDetails row))

def requireDecidable (row : Proposal) : Checked Unit :=
  refuseUnless (proposalStatus row = .submitted || proposalStatus row = .inReview)
    (conflictDetected "ontology proposal is no longer decidable" (statusDetails row))

def distinctReviewerError (row : Proposal) : FoundryLiteError :=
  permissionDenied "protected ontology releases require a reviewer other than the proposal author"
    [("proposalId", .str row.id)]

def requireDistinctReviewer (env : Environment ω) (row : Proposal) (reviewerUserId : String) :
    Checked Unit :=
  refuseUnless (!(env.isProtected && reviewerUserId = row.createdByUserId))
    (distinctReviewerError row)

def requireAssignedDecider (env : Environment ω) (row : Proposal) (actorUserId : String) :
    Checked Unit :=
  match row.assigneeUserId.filter (· ≠ "") with
  | none =>
    validationFailed "ontology proposal must be assigned before review"
      [("proposalId", .str row.id)]
  | some assignee => do
    refuseUnless (assignee = actorUserId)
      (permissionDenied "only the assigned human reviewer can decide this ontology proposal"
        [("proposalId", .str row.id), ("assigneeUserId", .str assignee)])
    refuseUnless (!(env.isProtected && assignee = row.createdByUserId)) (distinctReviewerError row)

/-- `_has_execution_approval` of a row that is approved. -/
def hasExecutionApproval (env : Environment ω) (row : Proposal) : Bool :=
  row.decision.any fun record =>
    row.assigneeUserId.any (fun assignee =>
      record.decision = .approved && record.decidedByUserId = assignee) &&
    (!env.isProtected || row.assigneeUserId ≠ some row.createdByUserId) &&
    !record.hasBlockedChanges &&
    match record.migrationPlan with
    | .plan migrationPlan => migrationPlan.blockingChanges.isEmpty
    | .validationFailed _ => true

def requireExecutionApproval (env : Environment ω) (row : Proposal) : Checked Unit :=
  refuseUnless (hasExecutionApproval env row)
    (permissionDenied "ontology proposal lacks assigned human-reviewer approval evidence"
      [("proposalId", .str row.id)])

/-- The check that an execution starts with. -/
def requireApprovalEvidence (env : Environment ω) (row : Proposal) : Checked Unit :=
  if row.status = .approved then requireExecutionApproval env row else pure ()

/-- `decision_replay`: whether a request repeats the decision that is stored. -/
def decisionReplay (row : Proposal) (decision : Decision) (comment : Option String) :
    Checked Bool :=
  match row.decision with
  | none => pure false
  | some stored => do
    refuseUnless (stored.decision = decision && stored.comment = comment)
      (conflictDetected "ontology proposal was already decided differently"
        [("proposal_id", .str row.id)])
    pure true

/-- `_require_proposal_row`. -/
def requireProposalRow (proposalId : String) : Tx ω Proposal := do
  Transaction.requireSome ((← get).proposals.rows.find? fun row => row.id = proposalId)
    (notFound "ontology proposal not found" [("proposal_id", .str proposalId)])

/-! ### Submitting -/

structure SubmitRequest where
  actorUserId : String
  title : String
  description : Option String
  yamlText : String
  idempotencyKey : String

/-- The validation of a text, in a transaction of its own that only reads. -/
def validateYamlText (env : Environment ω) (yamlText : String) : Tx ω ValidationResult := do
  liftM (env.validateYamlText (← get).ontology yamlText)

def validateSubmission (env : Environment ω) (request : SubmitRequest) :
    Tx ω ValidationResult := do
  liftM (requiredText request.idempotencyKey "Idempotency-Key")
  liftM (requiredText request.title "title")
  validateYamlText env request.yamlText

def proposalRecord (env : Environment ω) (request : SubmitRequest) (validation : ValidationResult)
    (token : String) : Proposal :=
  { id := "ontprop_" ++ token, claimText := request.title, status := .pending
    assigneeUserId := none
    actionProposal := ⟨request.title, request.description, request.yamlText, validation⟩
    proposalFingerprint := env.yamlFingerprint request.yamlText
    executionStatus := .pendingReview, approvedActionRunId := none
    createdByUserId := request.actorUserId, createdIdempotencyKey := request.idempotencyKey
    assignmentIdempotencyKey := none, decision := none, revision := none
    appliedOntologyVersion := none, withdrawal := none, executionError := none }

def ensureSubmitReplayMatches (existing record : Proposal) : Checked Unit :=
  refuseUnless (existing.proposalFingerprint = record.proposalFingerprint)
    (conflictDetected "idempotency key reused with different ontology proposal content"
      [("idempotency_key", .str record.createdIdempotencyKey),
        ("existing_proposal_id", .str existing.id)])

/-- The identifier of the proposal that was inserted, or that the key was used for before. -/
def submitProposal (env : Environment ω) (request : SubmitRequest) (validation : ValidationResult)
    (token : String) : Tx ω String := do
  let record := proposalRecord env request validation token
  match (← get).proposals.get? record.createdIdempotencyKey with
  | some existing => do
    liftM (ensureSubmitReplayMatches existing record)
    pure existing.id
  | none => do
    let proposals ← Transaction.requireSome ((← get).proposals.insert? record)
      (databaseError "IntegrityError")
    modify fun store => { store with proposals }
    pure record.id

/-! ### Assigning and withdrawing -/

structure AssignRequest where
  proposalId : String
  reviewerUserId : String
  isUnassignedOnly : Bool

def lostAssignmentError (before : Proposal) (isUnassignedOnly : Bool) : FoundryLiteError :=
  if isUnassignedOnly then
    conflictDetected "ontology proposal was already claimed by another reviewer"
      [("proposal_id", .str before.id)]
  else conflictDetected "ontology proposal is no longer awaiting review" (statusDetails before)

def assignReviewer (env : Environment ω) (request : AssignRequest) : Tx ω Unit := do
  liftM (requiredText request.reviewerUserId "reviewerUserId")
  let key := request.proposalId ++ ":assign:" ++ request.reviewerUserId
  let before ← requireProposalRow request.proposalId
  liftM (requireDistinctReviewer env before request.reviewerUserId)
  if before.assignmentIdempotencyKey = some key then pure ()
  else do
    let after ← assignReview request.proposalId request.reviewerUserId key request.isUnassignedOnly
    Transaction.require after.isSome (lostAssignmentError before request.isUnassignedOnly)

structure WithdrawRequest where
  proposalId : String
  actorUserId : String
  reason : Option String

def submitterError (message : String) (row : Proposal) : FoundryLiteError :=
  permissionDenied message
    [("proposal_id", .str row.id), ("submittedByUserId", .str row.createdByUserId)]

def withdrawProposal (request : WithdrawRequest) : Tx ω Unit := do
  let before ← requireProposalRow request.proposalId
  Transaction.require (before.createdByUserId = request.actorUserId)
    (submitterError "only the submitter may withdraw an ontology proposal" before)
  if proposalStatus before = .withdrawn then pure ()
  else do
    let after ← withdrawReview request.proposalId (request.reason, request.actorUserId)
    Transaction.require after.isSome
      (conflictDetected "ontology proposal can no longer be withdrawn" (statusDetails before))

/-! ### Deciding -/

structure DecideRequest where
  proposalId : String
  actorUserId : String
  decision : Decision
  expectedFingerprint : String
  comment : Option String

/-- The first transaction of a decision: the row, unless the decision is stored already. -/
def readDecidable (env : Environment ω) (request : DecideRequest) : Tx ω (Option Proposal) := do
  let row ← requireProposalRow request.proposalId
  liftM (requireFingerprintMatch row request.expectedFingerprint)
  liftM (requireAssignedDecider env row request.actorUserId)
  if ← liftM (decisionReplay row request.decision request.comment) then pure none
  else do
    liftM (requireDecidable row)
    pure (some row)

/-- `decision_time_plan`. -/
def decisionTimePlan (env : Environment ω) (row : Proposal) (decision : Decision) :
    Tx ω DecisionPlan := do
  match env.validateYamlText (← get).ontology row.actionProposal.yamlText with
  | .error error =>
    if decision = .approved then
      liftM (validationFailed (α := DecisionPlan)
        "ontology proposal no longer validates against the current active ontology"
        [("proposal_id", .str row.id), ("error", .str (env.scrubErrorText error.message))])
    else pure (.validationFailed (env.scrubErrorText error.message))
  | .ok validation => do
    liftM (rejectIf (decision = .approved ∧ validation.migrationPlan.blockingChanges ≠ [])
      "ontology proposal approval refused: migration plan is blocked at decision time"
      [("proposal_id", .str row.id)])
    pure (.plan validation.migrationPlan)

/-- `_has_blocked_changes`. -/
def DecisionPlan.hasBlockedChanges : DecisionPlan → Bool
  | .plan migrationPlan => !migrationPlan.blockingChanges.isEmpty
  | .validationFailed _ => false

def decisionRecord (request : DecideRequest) (plan : DecisionPlan) : DecisionRecord :=
  ⟨request.decision, request.comment, request.actorUserId, plan, plan.hasBlockedChanges⟩

/-- `_store_decision`. The fingerprint that the request named is not compared again. -/
def storeDecision (env : Environment ω) (request : DecideRequest) (plan : DecisionPlan) :
    Tx ω Unit := do
  let before ← requireProposalRow request.proposalId
  liftM (requireAssignedDecider env before request.actorUserId)
  match ← decideReview request.proposalId (decisionRecord request plan) with
  | some _ =>
    if request.decision = .approved then
      modify fun store => { store with
        approvals := ⟨request.proposalId, request.expectedFingerprint⟩ :: store.approvals }
    else pure ()
  | none => do
    let isReplay ← liftM (decisionReplay before request.decision request.comment)
    Transaction.require isReplay
      (conflictDetected "ontology proposal was decided concurrently" (statusDetails before))

/-! ### Revising -/

structure UpdateRequest where
  proposalId : String
  actorUserId : String
  yamlText : String
  expectedFingerprint : String
  title : Option String
  description : Option String

/-- `_guard_update_or_replay`: whether the text is the one that is stored. -/
def guardUpdateOrReplay (env : Environment ω) (request : UpdateRequest) : Tx ω Bool := do
  liftM (requiredText request.expectedFingerprint "expectedFingerprint")
  Transaction.require (request.title ≠ some "") ⟨.validationFailed, "title is required", []⟩
  let row ← requireProposalRow request.proposalId
  Transaction.require (row.createdByUserId = request.actorUserId)
    (submitterError "only the submitter may update an ontology proposal" row)
  liftM (requireProposalUpdatable row)
  if row.proposalFingerprint = env.yamlFingerprint request.yamlText then pure true
  else do
    liftM (requireFingerprintMatch row request.expectedFingerprint)
    pure false

/-- `revised_proposal_content`: what the request leaves out stays as it is. -/
def revisedContent (row : Proposal) (request : UpdateRequest) (validation : ValidationResult) :
    String × ActionProposal :=
  let title := request.title.getD row.claimText
  (title, ⟨title, request.description.or row.actionProposal.description, request.yamlText,
    validation⟩)

def revisionRecord (row : Proposal) (actorUserId : String) : ℕ × String :=
  ((row.revision.map Prod.fst).getD 0 + 1, actorUserId)

/-- `_store_revision`. -/
def storeRevision (env : Environment ω) (request : UpdateRequest) (validation : ValidationResult) :
    Tx ω Unit := do
  let before ← requireProposalRow request.proposalId
  let content := revisedContent before request validation
  let fingerprint := env.yamlFingerprint request.yamlText
  match ← updateProposalContent request.proposalId request.expectedFingerprint fingerprint content.1
      content.2 (revisionRecord before request.actorUserId) with
  | some _ => pure ()
  | none =>
    if before.proposalFingerprint = fingerprint then pure ()
    else do
      liftM (requireProposalUpdatable before)
      liftM (requireFingerprintMatch before request.expectedFingerprint)
      throw (conflictDetected "ontology proposal changed concurrently during update"
        [("proposal_id", .str request.proposalId)])

/-! ### Executing -/

/-- The key of the receipt of a proposal. Stripping its blanks changes nothing, since the identifier
of a proposal starts with `ontprop_`. -/
def activationKey (proposalId : String) : String :=
  "ontology.activation:" ++ proposalId ++ ":execute"

/-- `replay_activation`. -/
def replayActivation (store : Store ω) (proposalId definitionFingerprint : String) :
    Checked (Option ApplyResult) :=
  match store.receipts (activationKey proposalId) with
  | none => pure none
  | some receipt => do
    refuseUnless (receipt.definitionFingerprint = definitionFingerprint)
      (conflictDetected "ontology activation receipt is bound to a different definition")
    pure (some receipt.result)

/-- `_store_execution_success`. -/
def storeExecutionSuccess (proposalId actorUserId : String) (result : ApplyResult) :
    Tx ω Unit := do
  let before ← requireProposalRow proposalId
  match ← markExecutionSucceeded proposalId ⟨result, actorUserId⟩ with
  | some _ => pure ()
  | none =>
    Transaction.require (before.executionStatus = .executed)
      (conflictDetected "ontology proposal execution state changed concurrently")

/-- `reconcile_executing_proposal`: whether there was a receipt to record. -/
def reconcileExecutingProposal (env : Environment ω) (row : Proposal) (actorUserId : String) :
    Tx ω Bool := do
  let fingerprint ← liftM (env.definitionFingerprint row.actionProposal.yamlText)
  match ← liftM (replayActivation (← get) row.id fingerprint) with
  | none => pure false
  | some result => do
    storeExecutionSuccess row.id actorUserId result
    pure true

/-- `claim_new_execution`. -/
def claimNewExecution (row : Proposal) : Tx ω String := do
  Transaction.require (proposalStatus row = .approved)
    (conflictDetected "only approved ontology proposals can be executed" (statusDetails row))
  let claimed ← Transaction.requireSome (← markExecutionStarted row.id)
    (conflictDetected "ontology proposal execution was already claimed"
      [("proposal_id", .str row.id)])
  pure claimed.actionProposal.yamlText

structure ExecuteRequest where
  proposalId : String
  actorUserId : String
  expectedFingerprint : String

/-- `_claim_execution`: the text to activate, unless it was. An execution that is under way does not
stop another of the same proposal. -/
def claimExecution (env : Environment ω) (request : ExecuteRequest) : Tx ω (Option String) := do
  let row ← requireProposalRow request.proposalId
  liftM (requireFingerprintMatch row request.expectedFingerprint)
  liftM (requireApprovalEvidence env row)
  if row.executionStatus = .executed then pure none
  else if row.executionStatus = .executing then do
    if ← reconcileExecutingProposal env row request.actorUserId then pure none
    else pure (some row.actionProposal.yamlText)
  else some <$> claimNewExecution row

/-- `apply_ontology_text_once`, under the lock of the ontology. -/
def applyOntologyTextOnce (env : Environment ω) (proposalId yamlText : String) :
    Tx ω ApplyResult := do
  let fingerprint ← liftM (env.definitionFingerprint yamlText)
  match ← liftM (replayActivation (← get) proposalId fingerprint) with
  | some result => pure result
  | none => do
    let applied ← liftM (env.applyLoadedOntology (← get).ontology yamlText)
    modify fun store => { store with
      ontology := applied.2
      receipts := Function.update store.receipts (activationKey proposalId)
        (some ⟨fingerprint, applied.1⟩)
      activations := ⟨proposalId, yamlText⟩ :: store.activations }
    pure applied.1

/-- `_finish_execution`. -/
def finishExecution (proposalId actorUserId : String) (result : ApplyResult) : Tx ω Unit := do
  let current ← requireProposalRow proposalId
  if current.executionStatus = .executed then pure ()
  else storeExecutionSuccess current.id actorUserId result

/-- `_record_execution_failure`. -/
def recordExecutionFailure (env : Environment ω) (proposalId error : String) : Tx ω Unit := do
  let _ ← markExecutionFailed proposalId (env.scrubErrorText error)

/-! ### Requests under way -/

/-- A request between two of its transactions. -/
inductive Call where
  | submitting (request : SubmitRequest) (validation : ValidationResult)
  | planning (request : DecideRequest) (row : Proposal)
  | deciding (request : DecideRequest) (row : Proposal) (plan : DecisionPlan)
  | validating (request : UpdateRequest)
  | revising (request : UpdateRequest) (validation : ValidationResult)
  | applying (proposalId actorUserId yamlText : String)
  | finishing (proposalId actorUserId : String) (result : ApplyResult)
  /-- The activation failed, as far as the request can tell. -/
  | recovering (proposalId actorUserId error : String)
  | failing (proposalId error : String)

structure State (ω : Type) where
  store : Store ω
  calls : ℕ → Option Call

def State.initial (ontology : ω) : State ω := ⟨⟨∅, fun _ => none, ontology, [], []⟩, fun _ => none⟩

def State.setCall (s : State ω) (call : ℕ) (value : Option Call) : State ω :=
  { s with calls := Function.update s.calls call value }

/-- A transaction of a call, which says what the call does next. A refusal ends the call. -/
def State.transact (s : State ω) (call : ℕ) (transaction : Tx ω (Option Call)) : State ω :=
  match transaction s.store with
  | .ok (value, store) => { s with store }.setCall call value
  | .error _ => s.setCall call none

inductive Event (ω : Type) where
  | validateSubmission (request : SubmitRequest)
  | submit (token : String)
  | assign (request : AssignRequest)
  | withdraw (request : WithdrawRequest)
  | readDecidable (request : DecideRequest)
  | planDecision
  | storeDecision
  | guardUpdate (request : UpdateRequest)
  | validateUpdate
  | storeRevision
  | claimExecution (request : ExecuteRequest)
  | applyOnce
  /-- The activation ends with an exception, before or after it was committed. -/
  | loseActivation (error : String)
  | finishExecution
  | recover
  | recordFailure
  /-- The active ontology changes otherwise. -/
  | changeOntology (ontology : ω)
  /-- The call ends without another transaction. -/
  | abandon

/-- The transaction that an event is, by what the call has done before. -/
def transaction (env : Environment ω) : Event ω → Option Call → Option (Tx ω (Option Call))
  | .validateSubmission request, none =>
    some (some <$> .submitting request <$> Proposals.validateSubmission env request)
  | .submit token, some (.submitting request validation) =>
    some ((fun _ => none) <$> submitProposal env request validation token)
  | .assign request, none => some ((fun _ => none) <$> assignReviewer env request)
  | .withdraw request, none => some ((fun _ => none) <$> withdrawProposal request)
  | .readDecidable request, none =>
    some (Option.map (.planning request) <$> Proposals.readDecidable env request)
  | .planDecision, some (.planning request row) =>
    some (some <$> .deciding request row <$> decisionTimePlan env row request.decision)
  | .storeDecision, some (.deciding request _ plan) =>
    some ((fun _ => none) <$> Proposals.storeDecision env request plan)
  | .guardUpdate request, none =>
    some ((fun isReplay => if isReplay then none else some (.validating request)) <$>
      guardUpdateOrReplay env request)
  | .validateUpdate, some (.validating request) =>
    some (some <$> .revising request <$> validateYamlText env request.yamlText)
  | .storeRevision, some (.revising request validation) =>
    some ((fun _ => none) <$> Proposals.storeRevision env request validation)
  | .claimExecution request, none =>
    some (Option.map (.applying request.proposalId request.actorUserId) <$>
      Proposals.claimExecution env request)
  | .applyOnce, some (.applying proposalId actorUserId yamlText) =>
    some fun store => match applyOntologyTextOnce env proposalId yamlText store with
      | .ok (result, store') => .ok (some (.finishing proposalId actorUserId result), store')
      | .error error => .ok (some (.recovering proposalId actorUserId error.message), store)
  | .loseActivation error, some (.applying proposalId actorUserId _)
  | .loseActivation error, some (.finishing proposalId actorUserId _) =>
    some (pure (some (.recovering proposalId actorUserId error)))
  | .finishExecution, some (.finishing proposalId actorUserId result) =>
    some ((fun _ => none) <$> Proposals.finishExecution proposalId actorUserId result)
  | .recover, some (.recovering proposalId actorUserId error) =>
    some do
      let row ← requireProposalRow proposalId
      let isRecovered ← reconcileExecutingProposal env row actorUserId
      pure (if isRecovered then none else some (.failing proposalId error))
  | .recordFailure, some (.failing proposalId error) =>
    some ((fun _ => none) <$> recordExecutionFailure env proposalId error)
  | .changeOntology ontology, none =>
    some ((fun _ => none) <$> modify fun store => { store with ontology })
  | .abandon, some _ => some (pure none)
  | _, _ => none

/-- An event of a call. -/
def next (env : Environment ω) (s : State ω) (e : ℕ × Event ω) : Option (State ω) :=
  (transaction env e.2 (s.calls e.1)).map (s.transact e.1)

end FoundryLite.Proposals
