import FoundryLite.Library.Json
import FoundryLite.Library.Runs
import FoundryLite.Runtime.StatusCas

/-!
# The lease of a workflow run

Workers that may not run side by side claim the one workflow run they share. The row of the run
holds the lease in its output, under `workerLease`: who holds it, the token of the claim, and when
it expires.

`claim_workflow_run_lease` is two statements in one transaction. The first inserts the row, or
reads the one that is there; whether the lease may be claimed is decided on that reading. The
second is a conditional update of the status. Other workers' statements come in between, so the
model has the two as separate events (`claim`, `finishClaim`). A release is likewise a reading and
an update (`release`, `finishRelease`). `update_workflow_run_status` is a single update.

What a worker holds is the lease that its last successful claim returned to it, until it releases
it (`LeaseState.held`); the code has no such table.
-/

namespace FoundryLite.Runtime

/-! ### The row -/

inductive WorkflowStatus where
  | requested | starting | running | succeeded | failed | cancelled | startUnknown
  deriving DecidableEq

/-- A row of `workflow_runs`, and the record that is inserted as one. -/
structure WorkflowRun where
  status : WorkflowStatus
  output : Dict String Json
  error : Option (Dict String Json)
  attempts : ℕ
  startedAt : Option String
  completedAt : Option String
  deriving DecidableEq

structure WorkflowLease where
  ownerId : String
  leaseToken : String
  leaseExpiresAt : String
  lastHeartbeatAt : String
  deriving DecidableEq

/-- The members of `workerLease` as a worker writes them. -/
def WorkflowLease.fields (lease : WorkflowLease) : List (String × Json) :=
  [("ownerId", .str lease.ownerId), ("leaseToken", .str lease.leaseToken),
    ("leaseExpiresAt", .str lease.leaseExpiresAt), ("lastHeartbeatAt", .str lease.lastHeartbeatAt)]

/-- The record that a worker claims with: the lease, beside what else the worker keeps there. -/
def leaseRecord (lease : WorkflowLease) (output : Dict String Json) (attempts : ℕ)
    (startedAt : Option String) : WorkflowRun :=
  ⟨.running, output.insert "workerLease" (.obj lease.fields), none, attempts, startedAt, none⟩

/-! ### `runtime_workflow_lease` -/

def workflowLease (row : WorkflowRun) : Option (List (String × Json)) :=
  match row.output.get? "workerLease" with
  | some (.obj lease) => some lease
  | _ => none

def workflowLeaseClaimable (row : WorkflowRun) (leaseOwnerId now : String) : Bool :=
  if row.status ∈ [.succeeded, .failed, .cancelled, .startUnknown] then true
  else if row.status ∈ [.requested, .starting] ∧ workflowLease row = none then true
  else
    match workflowLease row with
    | none => false
    | some lease =>
      if lease.lookup "ownerId" = some (.str leaseOwnerId) then true
      else
        match lease.lookup "leaseExpiresAt" with
        | some (.str expiresAt) => decide (expiresAt ≤ now)
        | _ => false

def workflowLeaseMatches (row : WorkflowRun) (leaseOwnerId leaseToken : String) : Bool :=
  match workflowLease row with
  | none => false
  | some lease =>
    decide (lease.lookup "ownerId" = some (.str leaseOwnerId)) &&
      decide (lease.lookup "leaseToken" = some (.str leaseToken))

def workflowLeaseAttempts (row : WorkflowRun) (leaseOwnerId : String) : ℕ :=
  match workflowLease row with
  | none => row.attempts + 1
  | some lease =>
    if row.status = .running ∧ lease.lookup "ownerId" = some (.str leaseOwnerId) then row.attempts
    else row.attempts + 1

def workflowLeaseClaimValues (record : WorkflowRun) (attempts : ℕ) (status : WorkflowStatus) :
    WorkflowRun :=
  ⟨status, record.output, record.error, attempts, record.startedAt, none⟩

/-! ### Transitions -/

def workflowRunStarting : StatusTransition WorkflowStatus := ⟨[.requested, .startUnknown], .starting⟩

def workflowRunRunning : StatusTransition WorkflowStatus := ⟨[.starting], .running⟩

def workflowRunSucceeded : StatusTransition WorkflowStatus :=
  ⟨[.starting, .running, .startUnknown], .succeeded⟩

def workflowRunFailed : StatusTransition WorkflowStatus :=
  ⟨[.requested, .starting, .running, .startUnknown], .failed⟩

def workflowRunCancelled : StatusTransition WorkflowStatus :=
  ⟨[.requested, .starting, .running, .startUnknown], .cancelled⟩

def workflowRunStartUnknown : StatusTransition WorkflowStatus :=
  ⟨[.requested, .starting], .startUnknown⟩

def workflowRunLeaseRunning : StatusTransition WorkflowStatus :=
  ⟨[.requested, .starting, .running, .succeeded, .failed, .cancelled, .startUnknown], .running⟩

/-- The transitions that `update_workflow_run_status` is called with. -/
def statusUpdateTransitions : List (StatusTransition WorkflowStatus) :=
  [workflowRunStarting, workflowRunRunning, workflowRunSucceeded, workflowRunFailed,
    workflowRunCancelled, workflowRunStartUnknown]

def workflowLeaseReleaseTransition (status : WorkflowStatus) : StatusTransition WorkflowStatus :=
  if status = .cancelled then workflowRunCancelled
  else if status = .failed then workflowRunFailed
  else workflowRunSucceeded

/-! ### Statements -/

/-- The update of a claim, on the row as it is by then. The attempts are counted from the row as it
was read. -/
def claimRow (record read row : WorkflowRun) (leaseOwnerId : String) : Option WorkflowRun :=
  casStatusUpdate workflowRunLeaseRunning row.status true
    (workflowLeaseClaimValues record (workflowLeaseAttempts read leaseOwnerId))

/-- What a release writes. -/
structure LeaseRelease where
  leaseOwnerId : String
  leaseToken : String
  status : WorkflowStatus
  output : Dict String Json
  error : Option (Dict String Json)
  completedAt : String

/-- The update of a release, which is fenced on the lease in the row. -/
def releaseRow (call : LeaseRelease) (row : WorkflowRun) : Option WorkflowRun :=
  casStatusUpdate (workflowLeaseReleaseTransition call.status) row.status
    (workflowLeaseMatches row call.leaseOwnerId call.leaseToken)
    fun status => { row with status, output := call.output, error := call.error,
                             completedAt := some call.completedAt }

/-- What a status update writes. -/
structure StatusUpdate where
  transition : StatusTransition WorkflowStatus
  known : transition ∈ statusUpdateTransitions
  output : Dict String Json
  error : Option (Dict String Json)
  startedAt : Option String
  completedAt : Option String

def updateWorkflowRunStatus (call : StatusUpdate) (row : WorkflowRun) : Option WorkflowRun :=
  casStatusUpdate call.transition row.status true fun status =>
    { status, output := call.output, error := call.error
      attempts := if status = .starting then row.attempts + 1 else row.attempts
      startedAt := call.startedAt.or row.startedAt
      completedAt := call.completedAt.or row.completedAt }

/-! ### The workers -/

/-- A claim between its reading and its update. -/
structure PendingClaim where
  lease : WorkflowLease
  record : WorkflowRun
  read : WorkflowRun
  now : String

/-- The run, the calls that are under way and the leases that claims returned. -/
structure LeaseState where
  now : String
  row : Option WorkflowRun
  claims : ℕ → Option PendingClaim
  releases : ℕ → Option LeaseRelease
  held : String → Option WorkflowLease

/-- A workflow run, or none yet, that no worker has claimed. -/
def LeaseState.initial (now : String) (row : Option WorkflowRun) : LeaseState :=
  ⟨now, row, fun _ => none, fun _ => none, fun _ => none⟩

inductive Event where
  | tick (now : String)
  | claim (call : ℕ) (lease : WorkflowLease) (output : Dict String Json) (attempts : ℕ)
      (startedAt : Option String)
  | finishClaim (call : ℕ)
  | release (call : ℕ) (values : LeaseRelease)
  | finishRelease (call : ℕ)
  | updateStatus (call : StatusUpdate)

/-- The worker of a claim holds the lease that the claim returned to it. -/
def LeaseState.grant (s : LeaseState) (lease : WorkflowLease) (row : WorkflowRun) : LeaseState :=
  { s with row := some row, held := Function.update s.held lease.ownerId (some lease) }

/-- The first statement of a claim: insert the row, or read the one that is there and decide. -/
def LeaseState.claim (s : LeaseState) (call : ℕ) (lease : WorkflowLease) (record : WorkflowRun) :
    LeaseState :=
  match s.row with
  | none => s.grant lease record
  | some row =>
    if workflowLeaseClaimable row lease.ownerId s.now then
      { s with claims := Function.update s.claims call (some ⟨lease, record, row, s.now⟩) }
    else s

/-- The second statement of a claim. -/
def LeaseState.finishClaim (s : LeaseState) (call : ℕ) (pending : PendingClaim) : LeaseState :=
  let s := { s with claims := Function.update s.claims call none }
  match s.row.bind fun row => claimRow pending.record pending.read row pending.lease.ownerId with
  | none => s
  | some row => s.grant pending.lease row

/-- The first statement of a release: a look at the row that saves a hopeless update. -/
def LeaseState.release (s : LeaseState) (call : ℕ) (values : LeaseRelease) : LeaseState :=
  match s.row with
  | none => s
  | some row =>
    if workflowLeaseMatches row values.leaseOwnerId values.leaseToken then
      { s with releases := Function.update s.releases call (some values) }
    else s

/-- The second statement of a release. Its worker no longer holds a lease with that token. -/
def LeaseState.finishRelease (s : LeaseState) (call : ℕ) (values : LeaseRelease) : LeaseState :=
  let s := { s with releases := Function.update s.releases call none }
  match s.row.bind (releaseRow values) with
  | none => s
  | some row =>
    { s with
      row := some row
      held := Function.update s.held values.leaseOwnerId <|
        (s.held values.leaseOwnerId).filter fun lease => lease.leaseToken ≠ values.leaseToken }

def LeaseState.updateStatus (s : LeaseState) (call : StatusUpdate) : LeaseState :=
  match s.row.bind (updateWorkflowRunStatus call) with
  | none => s
  | some row => { s with row := some row }

def next (s : LeaseState) : Event → Option LeaseState
  | .tick now => if s.now ≤ now then some { s with now } else none
  | .claim call lease output attempts startedAt =>
    if (s.claims call).isNone then
      some (s.claim call lease (leaseRecord lease output attempts startedAt))
    else none
  | .finishClaim call => (s.claims call).map (s.finishClaim call)
  | .release call values => if (s.releases call).isNone then some (s.release call values) else none
  | .finishRelease call => (s.releases call).map (s.finishRelease call)
  | .updateStatus call => some (s.updateStatus call)

/-- A worker holds a lease that a claim returned to it and that has not expired. -/
def IsHeldBy (s : LeaseState) (worker : String) : Prop :=
  ∃ lease, s.held worker = some lease ∧ s.now < lease.leaseExpiresAt

end FoundryLite.Runtime
