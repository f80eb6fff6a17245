import FoundryLite.Library.Text
import FoundryLite.Ontology.Proposals

/-!
# Ontology branches

A branch is a working copy of the ontology that anybody may edit while it is open. It is merged by
proposal: a request submits the text that it read as an ontology proposal and records the proposal
on the branch, and once the proposal is applied, the next reader of the branch marks it merged. It
is rebased on the active ontology first, if that has moved.

The rows of branches and of proposals are written in different transactions. The one that records a
proposal and the one that marks a branch merged look at the status of the branch only.
-/

namespace FoundryLite.Branches

open FoundryLite.Proposals (requiredText refuseUnless)
open FoundryLite.Runtime (StatusTransition)

/-! ### Rows -/

inductive BranchStatus where
  | «open» | merged | abandoned
  deriving DecidableEq

def BranchStatus.text : BranchStatus → String
  | .open => "open"
  | .merged => "merged"
  | .abandoned => "abandoned"

structure Branch where
  id : String
  name : String
  status : BranchStatus
  baseVersionId : String
  baseVersionNumber : ℤ
  baseYamlText : String
  contentYamlText : String
  contentFingerprint : String
  createdBy : String
  mergedProposalId : Option String
  mergedVersionNumber : Option ℤ

/-- The active version and its definition as a text. -/
structure ActiveOntologySnapshot where
  versionId : String
  versionNumber : ℤ
  yamlText : String

/-- The rows of one tenant, by which every lookup is qualified. -/
structure Store (ω : Type) where
  branches : Table Branch.id Branch.id
  proposals : Proposals.Store ω

abbrev Tx (ω α : Type) := Transaction FoundryLiteError (Store ω) α

/-- A resource in conflict, and whether the version of the branch is kept. -/
structure Resolution where
  kind : String
  apiName : String
  isBranchKept : Bool

/-- What the rules leave to the ontology. -/
structure Environment (ω : Type) extends Proposals.Environment ω where
  activeOntologySnapshot : ω → Option ActiveOntologySnapshot
  /-- `_merged_content` of the base, the branch and the active definition. -/
  mergedContent : String → String → String → List Resolution → Checked String
  descriptionWithDiff : Option String → Branch → String

variable {ω : Type}

/-! ### Conditional updates -/

abbrev Update := Table.Update Branch.id Branch.id

/-- The update of the rows that meet a guard. -/
def Update.when (guard : Branch → Bool) (values : Update) : Update where
  apply row := if guard row then values.apply row else row
  pk_apply row := by
    split_ifs
    · exact values.pk_apply row
    · rfl
  uq_apply row := by
    split_ifs
    · exact values.uq_apply row
    · rfl

/-- A conditional update of one row, and whether it applied. -/
def guardedUpdate (branchId : String) (guard : Branch → Bool) (values : Update) : Tx ω Bool := do
  let applies := (← get).branches.rows.any fun row => row.id = branchId && guard row
  modify fun store => { store with branches := store.branches.updateRow branchId (values.when guard) }
  pure applies

def contentValues (contentYamlText contentFingerprint : String) : Update where
  apply row := { row with contentYamlText, contentFingerprint }
  pk_apply _ := rfl
  uq_apply _ := rfl

def updateBranchContent (branchId expectedFingerprint contentYamlText contentFingerprint : String) :
    Tx ω Bool :=
  guardedUpdate branchId
    (fun row => row.status = .open && row.contentFingerprint = expectedFingerprint)
    (contentValues contentYamlText contentFingerprint)

def rebaseValues (snapshot : ActiveOntologySnapshot) (contentYamlText contentFingerprint : String) :
    Update where
  apply row := { row with baseVersionId := snapshot.versionId
                          baseVersionNumber := snapshot.versionNumber
                          baseYamlText := snapshot.yamlText
                          contentYamlText, contentFingerprint }
  pk_apply _ := rfl
  uq_apply _ := rfl

def rebaseBranch (branchId expectedFingerprint : String) (snapshot : ActiveOntologySnapshot)
    (contentYamlText contentFingerprint : String) : Tx ω Bool :=
  guardedUpdate branchId
    (fun row => row.status = .open && row.contentFingerprint = expectedFingerprint)
    (rebaseValues snapshot contentYamlText contentFingerprint)

def proposalValues (proposalId : String) : Update where
  apply row := { row with mergedProposalId := some proposalId }
  pk_apply _ := rfl
  uq_apply _ := rfl

/-- Only the status of the branch is a condition. -/
def setBranchProposal (branchId proposalId : String) : Tx ω Bool :=
  guardedUpdate branchId (fun row => row.status = .open) (proposalValues proposalId)

def branchMerged : StatusTransition BranchStatus := ⟨[.open], .merged⟩

def branchAbandoned : StatusTransition BranchStatus := ⟨[.open], .abandoned⟩

def statusValues (transition : StatusTransition BranchStatus) (mergedVersionNumber : Option ℤ) :
    Update where
  apply row := { row with status := transition.toStatus
                          mergedVersionNumber := mergedVersionNumber.or row.mergedVersionNumber }
  pk_apply _ := rfl
  uq_apply _ := rfl

def transitionBranchStatus (branchId : String) (transition : StatusTransition BranchStatus)
    (mergedVersionNumber : Option ℤ) : Tx ω Bool :=
  guardedUpdate branchId (fun row => row.status ∈ transition.fromStatuses)
    (statusValues transition mergedVersionNumber)

/-! ### Rules -/

/-- `required_text` of the branch workflows, which a blank text does not pass. -/
def requiredNonBlank (value name : String) : Checked Unit :=
  rejectIf (Text.isBlank value) s!"{name} is required" [("field", .str name)]

def statusDetails (row : Branch) : Mapping :=
  [("branch_id", .str row.id), ("status", .str row.status.text)]

def requireOpenBranch (row : Branch) : Checked Unit :=
  refuseUnless (row.status = .open)
    (conflictDetected "ontology branch is no longer open" (statusDetails row))

def requireBranchFingerprintMatch (row : Branch) (expectedFingerprint : String) : Checked Unit := do
  requiredNonBlank expectedFingerprint "expectedFingerprint"
  refuseUnless (row.contentFingerprint = expectedFingerprint)
    (conflictDetected "ontology branch fingerprint mismatch"
      [("branch_id", .str row.id), ("expectedFingerprint", .str expectedFingerprint),
        ("contentFingerprint", .str row.contentFingerprint)])

/-- `_require_branch_row`. -/
def requireBranchRow (branchId : String) : Tx ω Branch := do
  Transaction.requireSome ((← get).branches.get? branchId)
    (notFound "ontology branch not found" [("branch_id", .str branchId)])

/-- `_require_active_snapshot`. -/
def requireActiveSnapshot (env : Environment ω) : Tx ω ActiveOntologySnapshot := do
  Transaction.requireSome (env.activeOntologySnapshot (← get).proposals.ontology)
    ⟨.validationFailed, "no active ontology version to branch from", []⟩

/-- A transaction of the proposals. -/
def onProposals {α : Type} (x : Proposals.Tx ω α) : Tx ω α :=
  Transaction.zoom Store.proposals (fun proposals store => { store with proposals }) x

/-- A conflict of a request with another that was committed since it read the branch. -/
def changedConcurrently (before : Branch) (operation : String) : FoundryLiteError :=
  conflictDetected s!"ontology branch changed concurrently during {operation}"
    [("branch_id", .str before.id)]

/-! ### Creating, editing and abandoning -/

structure CreateRequest where
  actorUserId : String
  name : String
  idempotencyKey : String

def branchRecord (env : Environment ω) (request : CreateRequest)
    (snapshot : ActiveOntologySnapshot) (token : String) : Branch :=
  { id := "ontbranch_" ++ token, name := Text.strip request.name, status := .open
    baseVersionId := snapshot.versionId, baseVersionNumber := snapshot.versionNumber
    baseYamlText := snapshot.yamlText, contentYamlText := snapshot.yamlText
    contentFingerprint := env.yamlFingerprint snapshot.yamlText, createdBy := request.actorUserId
    mergedProposalId := none, mergedVersionNumber := none }

def createBranch (env : Environment ω) (request : CreateRequest) (token : String) : Tx ω Unit := do
  liftM (requiredNonBlank request.idempotencyKey "Idempotency-Key")
  liftM (requiredNonBlank request.name "name")
  let snapshot ← requireActiveSnapshot env
  let record := branchRecord env request snapshot token
  match (← get).branches.rows.find? fun row => row.name = record.name && row.status = .open with
  | some existing =>
    Transaction.require (existing.createdBy = request.actorUserId)
      (conflictDetected "an open ontology branch with this name already exists"
        [("name", .str record.name), ("branch_id", .str existing.id),
          ("createdBy", .str existing.createdBy)])
  | none => do
    let branches ← Transaction.requireSome ((← get).branches.insert? record)
      (databaseError "IntegrityError")
    modify fun store => { store with branches }

/-- An edit of the working copy. An edit of one of its action types is one, with the text that
comes of it. -/
structure ContentRequest where
  branchId : String
  yamlText : String
  expectedFingerprint : String

/-- `_update_replay`: whether the text is the one that is stored. -/
def updateReplay (env : Environment ω) (request : ContentRequest) : Tx ω Bool := do
  liftM (requiredNonBlank request.expectedFingerprint "expectedFingerprint")
  let row ← requireBranchRow request.branchId
  liftM (requireOpenBranch row)
  pure (row.contentFingerprint = env.yamlFingerprint request.yamlText)

/-- `_store_content`. -/
def storeContent (env : Environment ω) (request : ContentRequest) : Tx ω Unit := do
  let before ← requireBranchRow request.branchId
  let isUpdated ← updateBranchContent request.branchId request.expectedFingerprint
    request.yamlText (env.yamlFingerprint request.yamlText)
  if isUpdated then pure ()
  else do
    liftM (requireOpenBranch before)
    liftM (requireBranchFingerprintMatch before request.expectedFingerprint)
    throw (changedConcurrently before "update")

/-- `abandon_ontology_branch`, of a caller who may. -/
def abandonBranch (branchId : String) : Tx ω Unit := do
  let before ← requireBranchRow branchId
  if before.status = .abandoned then pure ()
  else do
    let isUpdated ← transitionBranchStatus branchId branchAbandoned none
    Transaction.require isUpdated
      (conflictDetected "ontology branch can no longer be abandoned" (statusDetails before))

/-! ### Rebasing -/

structure RebaseRequest where
  branchId : String
  resolutions : List Resolution
  expectedFingerprint : String

/-- The first transaction of a rebase, with the merged text that is made of what it read. -/
def readRebase (env : Environment ω) (request : RebaseRequest) :
    Tx ω (ActiveOntologySnapshot × String) := do
  let row ← requireBranchRow request.branchId
  liftM (requireOpenBranch row)
  liftM (requireBranchFingerprintMatch row request.expectedFingerprint)
  let snapshot ← requireActiveSnapshot env
  Transaction.require (snapshot.versionId ≠ row.baseVersionId)
    (conflictDetected "ontology branch is already based on the active ontology version"
      [("branch_id", .str row.id), ("baseVersionNumber", .int row.baseVersionNumber)])
  let yamlText ← liftM (env.mergedContent row.baseYamlText row.contentYamlText snapshot.yamlText
    request.resolutions)
  pure (snapshot, yamlText)

/-- `_store_rebase`. -/
def storeRebase (env : Environment ω) (request : RebaseRequest) (snapshot : ActiveOntologySnapshot)
    (yamlText : String) : Tx ω Unit := do
  let before ← requireBranchRow request.branchId
  let isUpdated ← rebaseBranch request.branchId request.expectedFingerprint snapshot yamlText
    (env.yamlFingerprint yamlText)
  if isUpdated then pure ()
  else do
    liftM (requireOpenBranch before)
    liftM (requireBranchFingerprintMatch before request.expectedFingerprint)
    throw (changedConcurrently before "rebase")

/-! ### Proposing -/

structure ProposeRequest where
  branchId : String
  actorUserId : String
  title : String
  idempotencyKey : String
  description : Option String

/-- The first transaction of a proposal: the branch, as it is submitted. -/
def readProposing (env : Environment ω) (request : ProposeRequest) : Tx ω Branch := do
  liftM (requiredNonBlank request.title "title")
  liftM (requiredNonBlank request.idempotencyKey "Idempotency-Key")
  let row ← requireBranchRow request.branchId
  liftM (requireOpenBranch row)
  let snapshot ← requireActiveSnapshot env
  Transaction.require (snapshot.versionId = row.baseVersionId)
    (conflictDetected "ontology branch must be rebased before it can be proposed"
      [("branch_id", .str row.id), ("baseVersionNumber", .int row.baseVersionNumber),
        ("activeVersionNumber", .int snapshot.versionNumber)])
  pure row

/-- `_propose_replay`: whether a live proposal carries the content that was read. -/
def proposeReplay (row : Branch) : Tx ω Bool := do
  let store ← get
  pure (row.mergedProposalId.any fun proposalId => store.proposals.proposals.rows.any fun proposal =>
    proposal.id = proposalId &&
      Proposals.proposalStatus proposal ∈ [.submitted, .inReview, .approved, .applied] &&
      proposal.proposalFingerprint = row.contentFingerprint)

def submission (env : Environment ω) (request : ProposeRequest) (row : Branch) :
    Proposals.SubmitRequest :=
  ⟨request.actorUserId, request.title, some (env.descriptionWithDiff request.description row),
    row.contentYamlText, request.idempotencyKey⟩

/-- `_store_proposal`. The content that was submitted is not compared with the branch again. -/
def storeProposal (branchId proposalId : String) : Tx ω Unit := do
  let before ← requireBranchRow branchId
  let isUpdated ← setBranchProposal branchId proposalId
  if isUpdated then pure ()
  else do
    liftM (requireOpenBranch before)
    throw (changedConcurrently before "propose")

/-! ### Merging -/

/-- The first transaction of `reconcile_ontology_branch_merge`: the proposal of an open branch. -/
def readMerging (branchId : String) : Tx ω (Option String) := do
  let row := (← get).branches.get? branchId
  pure ((row.filter fun row => row.status = .open).bind Branch.mergedProposalId)

/-- `_applied_version_number`. -/
def appliedVersionNumber (proposalId : String) : Tx ω (Option ℤ) := do
  let proposal := (← get).proposals.proposals.rows.find? fun proposal => proposal.id = proposalId
  pure ((proposal.filter fun proposal => Proposals.proposalStatus proposal = .applied).bind
    fun proposal => proposal.appliedOntologyVersion.map fun applied => applied.versionNumber)

/-- The last transaction of `reconcile_ontology_branch_merge`. Neither the content of the branch nor
its proposal is looked at. -/
def recordMerge (branchId : String) (mergedVersionNumber : ℤ) : Tx ω Unit := do
  let _ ← transitionBranchStatus branchId branchMerged (some mergedVersionNumber)

/-! ### Requests under way -/

/-- A request between two of its transactions. -/
inductive Call where
  | validatingContent (request : ContentRequest)
  | storingContent (request : ContentRequest)
  | validatingRebase (request : RebaseRequest) (snapshot : ActiveOntologySnapshot)
      (yamlText : String)
  | storingRebase (request : RebaseRequest) (snapshot : ActiveOntologySnapshot) (yamlText : String)
  | checkingReplay (request : ProposeRequest) (row : Branch)
  | validatingProposal (request : ProposeRequest) (row : Branch)
  | submitting (request : ProposeRequest) (row : Branch) (validation : Proposals.ValidationResult)
  | storingProposal (branchId proposalId : String)
  | readingApplied (branchId proposalId : String)
  | merging (branchId proposalId : String) (mergedVersionNumber : ℤ)

structure State (ω : Type) where
  store : Store ω
  calls : ℕ → Option Call
  proposalCalls : ℕ → Option Proposals.Call

def State.initial (ontology : ω) : State ω :=
  ⟨⟨∅, (Proposals.State.initial ontology).store⟩, fun _ => none, fun _ => none⟩

/-- The proposals, and their own requests. -/
def State.proposals (s : State ω) : Proposals.State ω := ⟨s.store.proposals, s.proposalCalls⟩

inductive BranchEvent where
  | create (request : CreateRequest) (token : String)
  | updateReplay (request : ContentRequest)
  | validateContent
  | storeContent
  | readRebase (request : RebaseRequest)
  | validateRebase
  | storeRebase
  | readProposing (request : ProposeRequest)
  | proposeReplay
  | validateProposal
  | submitProposal (token : String)
  | storeProposal
  | abandonBranch (branchId : String)
  | readMerging (branchId : String)
  | readApplied
  | recordMerge
  /-- The call ends without another transaction. -/
  | abandon

inductive Event (ω : Type) where
  | branch (call : ℕ) (event : BranchEvent)
  | proposal (call : ℕ) (event : Proposals.Event ω)

/-- The transaction that an event is, by what the call has done before. -/
def transaction (env : Environment ω) : BranchEvent → Option Call → Option (Tx ω (Option Call))
  | .create request token, none => some ((fun _ => none) <$> createBranch env request token)
  | .updateReplay request, none =>
    some ((fun isReplay => if isReplay then none else some (.validatingContent request)) <$>
      Branches.updateReplay env request)
  | .validateContent, some (.validatingContent request) =>
    some ((fun _ => some (.storingContent request)) <$>
      onProposals (Proposals.validateYamlText env.toEnvironment request.yamlText))
  | .storeContent, some (.storingContent request) =>
    some ((fun _ => none) <$> Branches.storeContent env request)
  | .readRebase request, none =>
    some ((fun read => some (.validatingRebase request read.1 read.2)) <$>
      Branches.readRebase env request)
  | .validateRebase, some (.validatingRebase request snapshot yamlText) =>
    some ((fun _ => some (.storingRebase request snapshot yamlText)) <$>
      onProposals (Proposals.validateYamlText env.toEnvironment yamlText))
  | .storeRebase, some (.storingRebase request snapshot yamlText) =>
    some ((fun _ => none) <$> Branches.storeRebase env request snapshot yamlText)
  | .readProposing request, none =>
    some (some <$> .checkingReplay request <$> Branches.readProposing env request)
  | .proposeReplay, some (.checkingReplay request row) =>
    some ((fun isReplay => if isReplay then none else some (.validatingProposal request row)) <$>
      Branches.proposeReplay row)
  | .validateProposal, some (.validatingProposal request row) =>
    some (some <$> .submitting request row <$>
      onProposals (Proposals.validateSubmission env.toEnvironment (submission env request row)))
  | .submitProposal token, some (.submitting request row validation) =>
    some (some <$> .storingProposal row.id <$>
      onProposals (Proposals.submitProposal env.toEnvironment (submission env request row)
        validation token))
  | .storeProposal, some (.storingProposal branchId proposalId) =>
    some ((fun _ => none) <$> Branches.storeProposal branchId proposalId)
  | .abandonBranch branchId, none => some ((fun _ => none) <$> Branches.abandonBranch branchId)
  | .readMerging branchId, none =>
    some (Option.map (.readingApplied branchId) <$> Branches.readMerging branchId)
  | .readApplied, some (.readingApplied branchId proposalId) =>
    some (Option.map (.merging branchId proposalId) <$> appliedVersionNumber proposalId)
  | .recordMerge, some (.merging branchId _ mergedVersionNumber) =>
    some ((fun _ => none) <$> Branches.recordMerge branchId mergedVersionNumber)
  | .abandon, some _ => some (pure none)
  | _, _ => none

def State.setCall (s : State ω) (call : ℕ) (value : Option Call) : State ω :=
  { s with calls := Function.update s.calls call value }

/-- A transaction of a call, which says what the call does next. A refusal ends the call. -/
def State.transact (s : State ω) (call : ℕ) (transaction : Tx ω (Option Call)) : State ω :=
  match transaction s.store with
  | .ok (value, store) => { s with store }.setCall call value
  | .error _ => s.setCall call none

def State.setProposals (s : State ω) (proposals : Proposals.State ω) : State ω :=
  { s with store := { s.store with proposals := proposals.store }
           proposalCalls := proposals.calls }

/-- An event of a call. -/
def next (env : Environment ω) (s : State ω) : Event ω → Option (State ω)
  | .branch call event => (transaction env event (s.calls call)).map (s.transact call)
  | .proposal call event =>
    (Proposals.next env.toEnvironment s.proposals (call, event)).map s.setProposals

end FoundryLite.Branches
