import FoundryLite.Library.Dict
import FoundryLite.Library.Runs
import FoundryLite.Runtime.StatusCas

/-!
# Attempts of a pipeline node

A node of a pipeline run is executed by workers, one attempt after the other. The node has a row,
and so has each attempt, with the lease of its worker; a claim locks the row of the node and inserts
the next attempt, and every other change is a conditional update of the attempt and then of the
node, in one transaction.

Claims and outcomes are fenced on the lease of the whole run as well (`requireActive`), which they
renew and so lock; a cancellation of the run and of its nodes therefore comes before or after them.
The scheduling of a retry is not, and neither is a heartbeat.
-/

namespace FoundryLite.Pipeline

open FoundryLite.Runtime

/-! ### Rows -/

inductive NodeRunStatus where
  | pending | ready | running | retryWait | succeeded | failed | skipped | cancelled
  deriving DecidableEq

inductive AttemptStatus where
  | running | succeeded | failed | lost | cancelled
  deriving DecidableEq

inductive PipelineRunStatus where
  | queued | running | executing | cancelling | succeeded | partiallySucceeded | failed | cancelled
  deriving DecidableEq

/-- A row of `pipeline_runs`. -/
structure PipelineRun where
  status : PipelineRunStatus
  executionLeaseToken : Option String
  executionLeaseExpiresAt : Option String
  deriving DecidableEq

/-- A row of `pipeline_node_runs`. -/
structure NodeRun where
  status : NodeRunStatus
  attemptCount : ℕ
  startedAt : Option String
  completedAt : Option String
  deriving DecidableEq

/-- A row of `pipeline_node_attempts`, under its attempt number, as a worker's claim inserts it. -/
structure NodeAttempt where
  status : AttemptStatus
  leaseOwner : String
  leaseToken : String
  leaseExpiresAt : String
  fencingToken : ℕ
  retryAt : Option String
  errorKind : Option String
  externalExecutionId : Option String
  completedAt : Option String
  deriving DecidableEq

/-- The attempts at a node, by attempt number. -/
abbrev NodeAttempts := Dict ℕ NodeAttempt

/-! ### Transitions -/

def pipelineRunRunning : StatusTransition PipelineRunStatus :=
  ⟨[.queued, .running, .executing], .running⟩

def pipelineRunCancelling : StatusTransition PipelineRunStatus :=
  ⟨[.queued, .running, .executing], .cancelling⟩

/-- The transitions that end a run, and those that settle one that ended in part. -/
def runTerminalTransitions : List (StatusTransition PipelineRunStatus) :=
  [⟨[.running, .executing], .succeeded⟩,
    ⟨[.running, .executing, .cancelling], .partiallySucceeded⟩,
    ⟨[.queued, .running, .executing], .failed⟩,
    ⟨[.queued, .running, .executing, .cancelling], .cancelled⟩,
    ⟨[.partiallySucceeded], .succeeded⟩,
    ⟨[.partiallySucceeded], .partiallySucceeded⟩, ⟨[.partiallySucceeded], .failed⟩]

def nodeRunAttemptClaimed : StatusTransition NodeRunStatus :=
  ⟨[.pending, .ready, .running, .retryWait], .running⟩

def nodeRunSucceeded : StatusTransition NodeRunStatus := ⟨[.running], .succeeded⟩

def nodeRunFailed : StatusTransition NodeRunStatus := ⟨[.running], .failed⟩

def nodeRunRetryWait : StatusTransition NodeRunStatus := ⟨[.running, .failed], .retryWait⟩

def nodeRunCancelled : StatusTransition NodeRunStatus :=
  ⟨[.pending, .ready, .retryWait, .running], .cancelled⟩

def nodeAttemptSucceeded : StatusTransition AttemptStatus := ⟨[.running], .succeeded⟩

def nodeAttemptFailed : StatusTransition AttemptStatus := ⟨[.running], .failed⟩

def nodeAttemptLost : StatusTransition AttemptStatus := ⟨[.running], .lost⟩

def nodeAttemptCancelled : StatusTransition AttemptStatus := ⟨[.running], .cancelled⟩

/-! ### Statements -/

structure NodeAttemptClaim where
  workerId : String
  leaseToken : String
  leaseExpiresAt : String
  heartbeatAt : String
  externalExecutionId : Option String

/-- An update of one attempt, where its row matches. -/
def updateAttempt (attempts : NodeAttempts) (attemptNumber : ℕ)
    (update : NodeAttempt → Option NodeAttempt) : Option NodeAttempts := do
  let attempt ← attempts.get? attemptNumber
  let updated ← update attempt
  return attempts.insert attemptNumber updated

def canTakeAttempt (attempt : NodeAttempt) (claimedAt : String) : Bool :=
  attempt.status ≠ .running || attempt.leaseExpiresAt ≤ claimedAt

def markAttemptLost (lostAt : String) (attempt : NodeAttempt) : Option NodeAttempt :=
  casStatusUpdate nodeAttemptLost attempt.status true fun status =>
    { attempt with status, errorKind := some "worker_lost", completedAt := some lostAt }

/-- The number and the fencing token of the next attempt, and the attempts, of which the last is
lost if it was running. -/
def nextAttemptCoordinates (claim : NodeAttemptClaim) (attempts : NodeAttempts) :
    Option (ℕ × ℕ × NodeAttempts) :=
  match attempts.last? with
  | none => some (1, 1, attempts)
  | some (latestNumber, latest) =>
    if canTakeAttempt latest claim.heartbeatAt then
      let attempts := (updateAttempt attempts latestNumber
        (markAttemptLost claim.heartbeatAt)).getD attempts
      some (latestNumber + 1, latest.fencingToken + 1, attempts)
    else none

def claimNodeForAttempt (claim : NodeAttemptClaim) (attemptNumber : ℕ) (node : NodeRun) :
    Option NodeRun :=
  casStatusUpdate nodeRunAttemptClaimed node.status true fun status =>
    { node with status, attemptCount := attemptNumber
                startedAt := node.startedAt.or (some claim.heartbeatAt) }

def claimedAttempt (claim : NodeAttemptClaim) (fencingToken : ℕ) : NodeAttempt :=
  { status := .running, leaseOwner := claim.workerId, leaseToken := claim.leaseToken
    leaseExpiresAt := claim.leaseExpiresAt, fencingToken, retryAt := none, errorKind := none
    externalExecutionId := claim.externalExecutionId, completedAt := none }

def claimNodeAttempt (claim : NodeAttemptClaim) (node : NodeRun) (attempts : NodeAttempts) :
    Option (NodeRun × NodeAttempts) := do
  if node.status ∈ [NodeRunStatus.pending, .ready, .running, .retryWait] then
    let (attemptNumber, fencingToken, attempts) ← nextAttemptCoordinates claim attempts
    let node ← claimNodeForAttempt claim attemptNumber node
    return (node, attempts.insert attemptNumber (claimedAttempt claim fencingToken))
  else none

/-- What a worker is fenced on. -/
structure AttemptLease where
  attemptNumber : ℕ
  workerId : String
  leaseToken : String
  fencingToken : ℕ

def AttemptLease.matchesRow (lease : AttemptLease) (attempt : NodeAttempt) : Bool :=
  attempt.leaseOwner = lease.workerId && attempt.leaseToken = lease.leaseToken &&
    attempt.fencingToken = lease.fencingToken

def heartbeatNodeAttempt (lease : AttemptLease) (leaseExpiresAt heartbeatAt : String)
    (attempts : NodeAttempts) : Option NodeAttempts :=
  updateAttempt attempts lease.attemptNumber fun attempt =>
    if attempt.status = .running ∧ lease.matchesRow attempt = true ∧
        heartbeatAt < attempt.leaseExpiresAt then
      some { attempt with leaseExpiresAt }
    else none

/-- The outcome of an attempt: the statuses that a worker reports. -/
inductive AttemptOutcome where
  | succeeded | failed
  deriving DecidableEq

def AttemptOutcome.attemptTransition : AttemptOutcome → StatusTransition AttemptStatus
  | .succeeded => nodeAttemptSucceeded
  | .failed => nodeAttemptFailed

def AttemptOutcome.nodeTransition : AttemptOutcome → StatusTransition NodeRunStatus
  | .succeeded => nodeRunSucceeded
  | .failed => nodeRunFailed

/-- The update of the node, which is not checked to have matched. -/
def updateNodeAfterAttempt (attemptNumber : ℕ) (outcome : AttemptOutcome) (completedAt : String)
    (node : NodeRun) : NodeRun :=
  (casStatusUpdate outcome.nodeTransition node.status (node.attemptCount = attemptNumber)
    fun status => { node with status, completedAt := some completedAt }).getD node

/-- The workers report no time for a retry with an outcome. -/
def updateFencedNodeAttemptTerminal (lease : AttemptLease) (outcome : AttemptOutcome)
    (errorKind : Option String) (completedAt : String) (node : NodeRun) (attempts : NodeAttempts) :
    Option (NodeRun × NodeAttempts) := do
  let attempts ← updateAttempt attempts lease.attemptNumber fun attempt =>
    casStatusUpdate outcome.attemptTransition attempt.status
      (lease.matchesRow attempt && completedAt ≤ attempt.leaseExpiresAt)
      fun status => { attempt with status, errorKind, retryAt := none
                                   completedAt := some completedAt }
  return (updateNodeAfterAttempt lease.attemptNumber outcome completedAt node, attempts)

/-- The node is not checked to be at this attempt. -/
def scheduleNodeRetry (attemptNumber fencingToken : ℕ) (retryAt errorKind : String)
    (node : NodeRun) (attempts : NodeAttempts) : Option (NodeRun × NodeAttempts) := do
  let attempts ← updateAttempt attempts attemptNumber fun attempt =>
    if attempt.fencingToken = fencingToken ∧ attempt.status = .failed then
      some { attempt with retryAt := some retryAt, errorKind := some errorKind }
    else none
  let node := (casStatusUpdate nodeRunRetryWait node.status true fun status =>
    { node with status, completedAt := none }).getD node
  return (node, attempts)

def cancelNode (completedAt : String) (node : NodeRun) : NodeRun :=
  (casStatusUpdate nodeRunCancelled node.status true fun status =>
    { node with status, completedAt := some completedAt }).getD node

def cancelAttempt (workerId externalExecutionId completedAt : String) (attempt : NodeAttempt) :
    Option NodeAttempt :=
  if attempt.leaseOwner = workerId ∧ attempt.externalExecutionId = some externalExecutionId then
    casStatusUpdate nodeAttemptCancelled attempt.status true fun status =>
      { attempt with status, errorKind := some "cancellation", completedAt := some completedAt }
  else none

def cancelActiveNodeAttempt (workerId externalExecutionId completedAt : String) (node : NodeRun)
    (attempts : NodeAttempts) : Option (NodeRun × NodeAttempts) := do
  if node.status = .running then
    let (latestNumber, _) ← attempts.last?
    let attempts ← updateAttempt attempts latestNumber
      (cancelAttempt workerId externalExecutionId completedAt)
    return (cancelNode completedAt node, attempts)
  else none

/-! ### The run -/

/-- The run is executed under the token. -/
def requireActive (token : String) (run : PipelineRun) : Bool :=
  run.status ∈ [PipelineRunStatus.running, .executing] && run.executionLeaseToken = some token

def claimRunExecution (token expiresAt heartbeatAt : String) (run : PipelineRun) :
    Option PipelineRun :=
  let isFree := run.executionLeaseToken.isNone ||
    run.executionLeaseExpiresAt.any fun leaseExpiresAt => decide (leaseExpiresAt ≤ heartbeatAt)
  casStatusUpdate pipelineRunRunning run.status isFree
    fun status => ⟨status, some token, some expiresAt⟩

def requestRunCancel (run : PipelineRun) : Option PipelineRun :=
  casStatusUpdate pipelineRunCancelling run.status true fun status => { run with status }

/-- A run that ends gives its lease up. -/
def updateRunTerminal (transition : StatusTransition PipelineRunStatus) (run : PipelineRun) :
    Option PipelineRun :=
  casStatusUpdate transition run.status true fun status => ⟨status, none, none⟩

namespace NodeAttempts

structure State where
  run : PipelineRun
  node : NodeRun
  attempts : NodeAttempts

/-- A node that was just inserted. -/
def State.initial (run : PipelineRun) : State := ⟨run, ⟨.pending, 0, none, none⟩, ∅⟩

/-- Claims and outcomes come with the token that the worker read from the run. -/
inductive Event where
  | claim (token : String) (claim : NodeAttemptClaim)
  | heartbeat (lease : AttemptLease) (leaseExpiresAt heartbeatAt : String)
  | complete (token : String) (lease : AttemptLease) (outcome : AttemptOutcome)
      (errorKind : Option String) (completedAt : String)
  | scheduleRetry (attemptNumber fencingToken : ℕ) (retryAt errorKind : String)
  | cancelNode (workerId externalExecutionId completedAt : String)
  | claimRun (token expiresAt heartbeatAt : String)
  /-- The run is to be cancelled, and with it the node. -/
  | cancelRun (completedAt : String)
  | endRun (transition : StatusTransition PipelineRunStatus)

/-- A worker that cancels its node read before that its run was being cancelled. -/
def wasCancelling (run : PipelineRun) : Prop :=
  run.status ∈ [PipelineRunStatus.cancelling, .partiallySucceeded, .succeeded, .failed, .cancelled]

instance decidableWasCancelling (run : PipelineRun) : Decidable (wasCancelling run) :=
  inferInstanceAs (Decidable (run.status ∈ [PipelineRunStatus.cancelling, .partiallySucceeded,
    .succeeded, .failed, .cancelled]))

def State.setNode (s : State) : NodeRun × NodeAttempts → State
  | (node, attempts) => { s with node, attempts }

def next (s : State) : Event → Option State
  | .claim token claim =>
    if requireActive token s.run then (claimNodeAttempt claim s.node s.attempts).map s.setNode
    else none
  | .heartbeat lease leaseExpiresAt heartbeatAt =>
    (heartbeatNodeAttempt lease leaseExpiresAt heartbeatAt s.attempts).map
      fun attempts => { s with attempts }
  | .complete token lease outcome errorKind completedAt =>
    if requireActive token s.run then
      (updateFencedNodeAttemptTerminal lease outcome errorKind completedAt s.node s.attempts).map
        s.setNode
    else none
  | .scheduleRetry attemptNumber fencingToken retryAt errorKind =>
    (scheduleNodeRetry attemptNumber fencingToken retryAt errorKind s.node s.attempts).map s.setNode
  | .cancelNode workerId externalExecutionId completedAt =>
    if wasCancelling s.run then
      (cancelActiveNodeAttempt workerId externalExecutionId completedAt s.node s.attempts).map
        s.setNode
    else none
  | .claimRun token expiresAt heartbeatAt =>
    (claimRunExecution token expiresAt heartbeatAt s.run).map fun run => { s with run }
  | .cancelRun completedAt =>
    (requestRunCancel s.run).map fun run =>
      { s with run, node := Pipeline.cancelNode completedAt s.node }
  | .endRun transition =>
    if transition ∈ runTerminalTransitions then
      (updateRunTerminal transition s.run).map fun run => { s with run }
    else none

end NodeAttempts

end FoundryLite.Pipeline
