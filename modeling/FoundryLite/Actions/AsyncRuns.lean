import FoundryLite.Actions.CommitFrame
import FoundryLite.Library.Runs
import FoundryLite.Runtime.StatusCas

/-!
# Asynchronous runs of an action

A run that was queued has one step, and workers make attempts at it, one after the other. A worker
claims the step for an attempt of its own, with a lease; it computes the plan, and commits it in a
transaction that checks the lease, moves the run through `commit_pending` to `succeeded`, applies the
edits and completes the attempt. It may fail instead, and the run may be cancelled meanwhile.

The status of the run that a worker reads at the beginning of a transaction is not locked, and may be
old by the time it writes. What it wrote for is decided by the conditional updates of the run and of
the attempt alone, and by the lock on the attempt. A transaction is therefore one event here, at the
time of its first update of the run, and takes the branch of any status that the run had before.
-/

namespace FoundryLite.Actions

open ObjectStore Transaction

namespace AsyncRuns

/-! ### Rows -/

inductive StepStatus where
  | pending | running | retryWait | succeeded | failed | cancelled
  deriving DecidableEq

inductive AttemptStatus where
  | running | succeeded | failed | lost | cancelled
  deriving DecidableEq

/-- What of a run's row is set when it is queued, and read again by its workers. -/
structure PlannedRun where
  id : String
  actionTypeId : String
  definitionVersion : String

/-- The row of the one step of a run. -/
structure RunStep where
  status : StepStatus
  attemptCount : ℕ
  startedAt : Option String
  completedAt : Option String
  deriving DecidableEq

/-- A row of `action_step_attempts`, under its attempt number. -/
structure StepAttempt where
  status : AttemptStatus
  workerId : String
  leaseToken : String
  leaseExpiresAt : String
  fencingToken : ℕ
  retryAt : Option String
  errorKind : Option String
  completedAt : Option String
  deriving DecidableEq

abbrev StepAttempts := Dict ℕ StepAttempt

structure CancelRequest where
  idempotencyKey : String
  requestFingerprint : String
  deriving DecidableEq

/-! ### Transitions -/

def actionRunAsyncRunning : StatusTransition := ⟨[.queued, .running], .running⟩

def actionRunCommitPending : StatusTransition := ⟨[.running], .commitPending⟩

def actionRunCancelling : StatusTransition := ⟨[.queued, .running, .commitPending], .cancelling⟩

def actionRunAsyncFailed : StatusTransition :=
  ⟨[.queued, .running, .commitPending, .cancelling], .failed⟩

def actionRunAsyncCancelled : StatusTransition := ⟨[.queued, .running, .cancelling], .cancelled⟩

def actionRunAsyncConflict : StatusTransition := ⟨[.running, .commitPending], .conflict⟩

def actionRunAsyncOutcomeUnknown : StatusTransition := ⟨[.running], .outcomeUnknown⟩

def actionStepRunning : Runtime.StatusTransition StepStatus :=
  ⟨[.pending, .running, .retryWait], .running⟩

def actionStepRetryWait : Runtime.StatusTransition StepStatus := ⟨[.running], .retryWait⟩

def actionStepSucceeded : Runtime.StatusTransition StepStatus := ⟨[.running], .succeeded⟩

def actionStepFailed : Runtime.StatusTransition StepStatus := ⟨[.running], .failed⟩

def actionStepCancelled : Runtime.StatusTransition StepStatus :=
  ⟨[.pending, .running, .retryWait], .cancelled⟩

def actionStepCancelUnstarted : Runtime.StatusTransition StepStatus :=
  ⟨[.pending, .retryWait], .cancelled⟩

def actionAttemptLost : Runtime.StatusTransition AttemptStatus := ⟨[.running], .lost⟩

/-! ### Attempts -/

structure StepAttemptClaim where
  workerId : String
  leaseToken : String
  leaseExpiresAt : String
  claimedAt : String
  isCancellation : Bool

def canTakeover (attempt : StepAttempt) (claimedAt : String) (isCancellation : Bool) : Bool :=
  if attempt.status = .running then attempt.leaseExpiresAt ≤ claimedAt
  else
    let retryAt := if isCancellation then none else attempt.retryAt
    retryAt.all fun retryAt => decide (retryAt ≤ claimedAt)

/-- The attempt is lost if it is running. -/
def markLost (lostAt : String) (attempt : StepAttempt) : StepAttempt :=
  (Runtime.casStatusUpdate actionAttemptLost attempt.status true fun status =>
    { attempt with status, errorKind := some "worker_lost"
                   completedAt := some lostAt }).getD attempt

def markStepRunning (changedAt : String) (attemptNumber : ℕ) (step : RunStep) : RunStep :=
  (Runtime.casStatusUpdate actionStepRunning step.status true fun status =>
    { status, attemptCount := attemptNumber, startedAt := step.startedAt.or (some changedAt)
      completedAt := none }).getD step

def claimedAttempt (claim : StepAttemptClaim) (fencingToken : ℕ) : StepAttempt :=
  { status := .running, workerId := claim.workerId, leaseToken := claim.leaseToken
    leaseExpiresAt := claim.leaseExpiresAt, fencingToken, retryAt := none, errorKind := none
    completedAt := none }

/-- What a worker is fenced on. -/
structure AttemptLease where
  attemptNumber : ℕ
  workerId : String
  leaseToken : String
  fencingToken : ℕ
  deriving DecidableEq

/-- The lease of a new attempt, with the step and the attempts. -/
def claimStep (claim : StepAttemptClaim) (step : RunStep) (attempts : StepAttempts) :
    Option (AttemptLease × RunStep × StepAttempts) :=
  if step.status ∈ [StepStatus.pending, .running, .retryWait] then
    match attempts.last? with
    | none =>
      some (⟨1, claim.workerId, claim.leaseToken, 1⟩, markStepRunning claim.claimedAt 1 step,
        attempts.insert 1 (claimedAttempt claim 1))
    | some (latestNumber, latest) =>
      if canTakeover latest claim.claimedAt claim.isCancellation then
        let number := latestNumber + 1
        let fencing := latest.fencingToken + 1
        let attempts := attempts.insert latestNumber (markLost claim.claimedAt latest)
        some (⟨number, claim.workerId, claim.leaseToken, fencing⟩,
          markStepRunning claim.claimedAt number step,
          attempts.insert number (claimedAttempt claim fencing))
      else none
  else none

def AttemptLease.matchesRow (lease : AttemptLease) (attempt : StepAttempt) : Bool :=
  attempt.workerId = lease.workerId && attempt.leaseToken = lease.leaseToken &&
    attempt.fencingToken = lease.fencingToken

def heartbeatAttempt (lease : AttemptLease) (leaseExpiresAt heartbeatAt : String)
    (attempts : StepAttempts) : Option StepAttempts := do
  let attempt ← attempts.get? lease.attemptNumber
  if attempt.status = .running ∧ lease.matchesRow attempt = true ∧
      heartbeatAt < attempt.leaseExpiresAt then
    return attempts.insert lease.attemptNumber { attempt with leaseExpiresAt }
  else none

def lockAttemptOwner (lease : AttemptLease) (ownedAt : String) (attempts : StepAttempts) :
    Option StepAttempt := do
  let attempt ← attempts.get? lease.attemptNumber
  if attempt.status = .running ∧ lease.matchesRow attempt = true ∧
      ownedAt ≤ attempt.leaseExpiresAt then
    return attempt
  else none

/-- How an attempt ends. -/
inductive AttemptOutcome where
  | succeeded | failed | cancelled
  deriving DecidableEq

def AttemptOutcome.attemptTransition : AttemptOutcome → Runtime.StatusTransition AttemptStatus
  | .succeeded => ⟨[.running], .succeeded⟩
  | .failed => ⟨[.running], .failed⟩
  | .cancelled => ⟨[.running], .cancelled⟩

def AttemptOutcome.stepTransition : AttemptOutcome → Runtime.StatusTransition StepStatus
  | .succeeded => actionStepSucceeded
  | .failed => actionStepFailed
  | .cancelled => actionStepCancelled

def completeStep (attemptNumber : ℕ) (outcome : AttemptOutcome) (retryAt : Option String)
    (changedAt : String) (step : RunStep) : RunStep :=
  let transition := if retryAt.isSome then actionStepRetryWait else outcome.stepTransition
  (Runtime.casStatusUpdate transition step.status (step.attemptCount = attemptNumber) fun status =>
    { step with status
                completedAt := if retryAt.isSome then none else some changedAt }).getD step

structure AttemptCompletion where
  outcome : AttemptOutcome
  errorKind : Option String := none
  retryAt : Option String := none

def completeAttempt (lease : AttemptLease) (completion : AttemptCompletion) (completedAt : String)
    (step : RunStep) (attempts : StepAttempts) : Option (RunStep × StepAttempts) := do
  let attempt ← attempts.get? lease.attemptNumber
  let completed ← Runtime.casStatusUpdate completion.outcome.attemptTransition attempt.status
    (lease.matchesRow attempt && completedAt ≤ attempt.leaseExpiresAt) fun status =>
      { attempt with status, errorKind := completion.errorKind, retryAt := completion.retryAt
                     completedAt := some completedAt }
  return (completeStep lease.attemptNumber completion.outcome completion.retryAt completedAt step,
    attempts.insert lease.attemptNumber completed)

/-! ### The run -/

structure State where
  store : Store
  cancelRequest : Option CancelRequest
  step : RunStep
  attempts : StepAttempts

abbrev AsyncTx (α : Type) := Transaction FoundryLiteError State α

def onStore {α : Type} (x : Tx α) : AsyncTx α :=
  Transaction.zoom State.store (fun store s => { s with store }) x

section

variable (ctx : RequestContext) (planned : PlannedRun)

def queuedRun : ActionRun :=
  { id := planned.id, tenantId := ctx.tenantId, actorUserId := ctx.actorUserId, status := .queued
    completedAt := none }

/-- Queue a run, with its step; nothing where its id is taken. -/
def insertRun (store : Store) : Option State :=
  if runsOf ctx planned.id store = [] then
    some
      { store := { store with actionRuns := store.actionRuns ++ [queuedRun ctx planned] }
        cancelRequest := none
        step := ⟨.pending, 0, none, none⟩
        attempts := ∅ }
  else none

def transitionedRun (transition : StatusTransition) (changedAt : String) (run : ActionRun) :
    ActionRun :=
  { run with
    status := transition.toStatus
    completedAt :=
      if transition.toStatus ∈ [ActionRunStatus.succeeded, .failed, .cancelled, .conflict,
        .outcomeUnknown] then some changedAt else run.completedAt }

def transitionRun (transition : StatusTransition) (changedAt : String) : Tx Bool := do
  let store ← get
  let hit := fun run : ActionRun =>
    run.tenantId = ctx.tenantId && run.id = planned.id && run.status ∈ transition.fromStatuses
  set { store with
    actionRuns := store.actionRuns.map fun run =>
      if hit run then transitionedRun transition changedAt run else run }
  return store.actionRuns.countP hit = 1

def actionStepLeaseLost (message : String) : FoundryLiteError := conflictDetected message

def requireActionAttemptOwner (lease : AttemptLease) (ownedAt : String) : AsyncTx Unit := do
  let s ← get
  let _ ← requireSome (lockAttemptOwner lease ownedAt s.attempts)
    (actionStepLeaseLost "Action step fencing token is stale")

def completeActionAttempt (lease : AttemptLease) (completion : AttemptCompletion)
    (changedAt : String) : AsyncTx Unit := do
  let s ← get
  let (step, attempts) ← requireSome
    (completeAttempt lease completion changedAt s.step s.attempts)
    (actionStepLeaseLost "Action step terminal write was fenced")
  set { s with step, attempts }

/-- A worker's claim: a lease, and the run is running if it was queued. -/
def claimRun (claim : StepAttemptClaim) : AsyncTx Unit := do
  let s ← get
  let (_, step, attempts) ← requireSome (claimStep claim s.step s.attempts)
    (actionStepLeaseLost "Action step is owned by another live worker")
  set { s with step, attempts }
  let _ ← onStore (transitionRun ctx planned actionRunAsyncRunning claim.claimedAt)

/-- What a worker brings to its commit, and what it finds when it revalidates. -/
structure CommitCall where
  env : Environment
  ontology : Ontology
  plan : EditPlan
  policy : LogPolicy
  contractFingerprint : String
  activeActionTypeId : Checked String
  authorization : Checked Unit

def revalidate (call : CommitCall) : Checked Unit := do
  let activeId ← call.activeActionTypeId
  if activeId ≠ planned.actionTypeId then
    throw (conflictDetected "Action definition changed after planning")
  if call.contractFingerprint ≠ planned.definitionVersion then
    throw (conflictDetected "Action definition fingerprint changed after planning")
  call.authorization

def markActionCommitPending (changedAt : String) : AsyncTx Unit := do
  let updated ← onStore (transitionRun ctx planned actionRunCommitPending changedAt)
  require updated (conflictDetected "Action run changed before commit")

def commitRun (lease : AttemptLease) (call : CommitCall) (changedAt : String) : AsyncTx Unit := do
  requireActionAttemptOwner lease changedAt
  liftM (revalidate planned call)
  markActionCommitPending ctx planned changedAt
  let _ ← onStore (commitPlan call.env ctx call.ontology planned.id call.plan (some call.policy)
    actionRunAsyncSucceeded)
  completeActionAttempt lease { outcome := .succeeded } changedAt

def cancelClaimed (lease : AttemptLease) (changedAt : String) : AsyncTx Unit := do
  requireActionAttemptOwner lease changedAt
  completeActionAttempt lease { outcome := .cancelled, errorKind := some "cancellation" } changedAt
  let updated ← onStore (transitionRun ctx planned actionRunAsyncCancelled changedAt)
  require updated (conflictDetected "Action cancellation lost the terminal state race")

/-- What a terminal failure makes of the run. -/
inductive TerminalFailure where
  | conflict | outcomeUnknown | failed
  deriving DecidableEq

def TerminalFailure.transition : TerminalFailure → StatusTransition
  | .conflict => actionRunAsyncConflict
  | .outcomeUnknown => actionRunAsyncOutcomeUnknown
  | .failed => actionRunAsyncFailed

/-- A failure with a time for a retry leaves the run as it is. -/
def persistFailure (lease : AttemptLease) (failure : TerminalFailure) (errorKind : String)
    (retryAt : Option String) (changedAt : String) : AsyncTx Unit := do
  requireActionAttemptOwner lease changedAt
  completeActionAttempt lease { outcome := .failed, errorKind := some errorKind, retryAt } changedAt
  if retryAt.isNone then
    let _ ← onStore (transitionRun ctx planned failure.transition changedAt)

/-- The end of a cancellation. Where the step was read as running, it is claimed first. -/
def finalizeCancellation (claim? : Option StepAttemptClaim) (changedAt : String) :
    AsyncTx Unit := do
  match claim? with
  | none => pure ()
  | some claim =>
    let s ← get
    let (lease, step, attempts) ← requireSome
      (claimStep { claim with isCancellation := true } s.step s.attempts)
      (actionStepLeaseLost "Action step is owned by another live worker")
    set { s with step, attempts }
    completeActionAttempt lease { outcome := .cancelled, errorKind := some "cancellation" } changedAt
  let _ ← onStore (transitionRun ctx planned actionRunAsyncCancelled changedAt)

def cancelUnstartedStep (changedAt : String) (step : RunStep) : RunStep :=
  (Runtime.casStatusUpdate actionStepCancelUnstarted step.status true fun status =>
    { step with status, completedAt := some changedAt }).getD step

/-- A second request writes nothing, whether it is the same or not. -/
def requestCancel (request : CancelRequest) (requestedAt : String) : AsyncTx Unit := do
  let s ← get
  require s.cancelRequest.isNone (conflictDetected
    "Cancellation Idempotency-Key was reused with a different request")
  let updated ← onStore (transitionRun ctx planned actionRunCancelling requestedAt)
  require updated (conflictDetected "Action run cancellation changed concurrently")
  modify fun s => { s with cancelRequest := some request
                           step := cancelUnstartedStep requestedAt s.step }

/-! ### Events -/

inductive Event where
  | claim (claim : StepAttemptClaim)
  | heartbeat (lease : AttemptLease) (leaseExpiresAt heartbeatAt : String)
  | commit (lease : AttemptLease) (call : CommitCall) (changedAt : String)
  | cancelClaimed (lease : AttemptLease) (changedAt : String)
  | fail (lease : AttemptLease) (failure : TerminalFailure) (errorKind : String)
      (retryAt : Option String) (changedAt : String)
  | finalizeCancellation (claim? : Option StepAttemptClaim) (changedAt : String)
  | requestCancel (request : CancelRequest) (requestedAt : String)
  /-- Another transaction, which does not write this run or log an edit for it. -/
  | other (store : Store)

/-- The state after a transaction; one that is refused is rolled back. -/
def effect (x : AsyncTx Unit) (s : State) : Option State :=
  match x s with
  | .ok (_, t) => some t
  | .error _ => none

def State.runs (s : State) : List ActionRun := runsOf ctx planned.id s.store

def State.edits (s : State) : List ObjectEdit := editsOf ctx planned.id s.store

/-- A worker that cancels read before that the run was being cancelled. -/
def wasCancelling (s : State) : Bool :=
  (s.runs ctx planned).any fun run => decide (run.status ∈ [ActionRunStatus.cancelling, .cancelled,
    .failed])

def next (s : State) : Event → Option State
  | .claim claim => effect (claimRun ctx planned claim) s
  | .heartbeat lease leaseExpiresAt heartbeatAt =>
    (heartbeatAttempt lease leaseExpiresAt heartbeatAt s.attempts).map
      fun attempts => { s with attempts }
  | .commit lease call changedAt => effect (commitRun ctx planned lease call changedAt) s
  | .cancelClaimed lease changedAt =>
    if wasCancelling ctx planned s then effect (cancelClaimed ctx planned lease changedAt) s
    else none
  | .fail lease failure errorKind retryAt changedAt =>
    effect (persistFailure ctx planned lease failure errorKind retryAt changedAt) s
  | .finalizeCancellation claim? changedAt =>
    if wasCancelling ctx planned s then effect (finalizeCancellation ctx planned claim? changedAt) s
    else none
  | .requestCancel request requestedAt => effect (requestCancel ctx planned request requestedAt) s
  | .other store =>
    if runsOf ctx planned.id store = s.runs ctx planned ∧
        editsOf ctx planned.id store = s.edits ctx planned then some { s with store }
    else none

end

end AsyncRuns

end FoundryLite.Actions
