import FoundryLite.Library.Json
import FoundryLite.Library.Runs
import FoundryLite.Runtime.StatusCas

/-!
# Receipts of action effects

An effect of an action is a call of an external executor, before or after the action commits. Its
receipt is a row that workers claim in turn: a claim gives a worker a lease and a fencing token,
`start_dispatch` notes that the executor is about to be called, and `complete_receipt` records the
outcome. Each is one conditional update or one transaction that locks the row.

Between them a worker decides on what it saw: the row as its claim returned it, and, before it
records an outcome, whether a cancellation has been requested by then. Those readings are not
repeated in the update, so they are events of their own (`decide`). The call of the executor is one,
too: a worker may be slow between the start of its dispatch and the call. A worker that crashes, or
whose update matches no row, takes no further step.
-/

namespace FoundryLite.Runtime

/-! ### The row -/

inductive EffectStatus where
  | pending | retryWait | delivering | succeeded | deadLetter | outcomeUnknown | cancelled
  deriving DecidableEq

def EffectStatus.IsTerminal (status : EffectStatus) : Prop :=
  status ∈ [EffectStatus.succeeded, .deadLetter, .outcomeUnknown, .cancelled]

instance EffectStatus.decidableIsTerminal (status : EffectStatus) : Decidable status.IsTerminal :=
  inferInstanceAs (Decidable (status ∈ [EffectStatus.succeeded, .deadLetter, .outcomeUnknown,
    .cancelled]))

inductive EffectPhase where
  | beforeCommit | afterCommit
  deriving DecidableEq

/-- What became of the call of the executor. -/
structure EffectOutcome where
  response : Option Json
  error : Option Json
  externalExecutionId : Option String

/-- A row of `action_effect_receipts`. -/
structure EffectReceipt where
  phase : EffectPhase
  status : EffectStatus
  attemptCount : ℕ
  maxAttempts : ℕ
  workerId : Option String
  leaseToken : Option String
  leaseExpiresAt : Option String
  fencingToken : ℕ
  dispatchStartedAt : Option String
  cancelRequestedAt : Option String
  cancelReason : Option String
  retryAt : Option String
  outcome : EffectOutcome
  completedAt : Option String

/-- The row as it is inserted. -/
def insertedReceipt (phase : EffectPhase) (maxAttempts : ℕ) : EffectReceipt :=
  { phase, status := .pending, attemptCount := 0, maxAttempts, workerId := none, leaseToken := none
    leaseExpiresAt := none, fencingToken := 0, dispatchStartedAt := none, cancelRequestedAt := none
    cancelReason := none, retryAt := none, outcome := ⟨none, none, none⟩, completedAt := none }

/-! ### Transitions -/

def actionEffectDelivering : StatusTransition EffectStatus :=
  ⟨[.pending, .retryWait, .delivering], .delivering⟩

def actionEffectSucceeded : StatusTransition EffectStatus := ⟨[.delivering], .succeeded⟩

def actionEffectRetryWait : StatusTransition EffectStatus := ⟨[.delivering], .retryWait⟩

def actionEffectDeadLetter : StatusTransition EffectStatus := ⟨[.delivering], .deadLetter⟩

def actionEffectOutcomeUnknown : StatusTransition EffectStatus := ⟨[.delivering], .outcomeUnknown⟩

def actionEffectCancelled : StatusTransition EffectStatus :=
  ⟨[.pending, .retryWait, .delivering], .cancelled⟩

def actionEffectManualRetry : StatusTransition EffectStatus := ⟨[.deadLetter], .retryWait⟩

def actionEffectReconciledSucceeded : StatusTransition EffectStatus :=
  ⟨[.outcomeUnknown], .succeeded⟩

def actionEffectReconciledDeadLetter : StatusTransition EffectStatus :=
  ⟨[.outcomeUnknown], .deadLetter⟩

/-! ### Statements -/

structure EffectClaim where
  workerId : String
  leaseToken : String
  leaseExpiresAt : String
  claimedAt : String
  isReconciliation : Bool

def isClaimable (row : EffectReceipt) (claimedAt : String) (isReconciliation : Bool) : Bool :=
  if row.maxAttempts ≤ row.attemptCount ∧ isReconciliation = false then false
  else if row.status = .pending then true
  else if row.status = .retryWait then row.retryAt.any fun retryAt => decide (retryAt ≤ claimedAt)
  else row.status = .delivering &&
    row.leaseExpiresAt.any fun leaseExpiresAt => decide (leaseExpiresAt < claimedAt)

/-- The row is locked from its reading on, so the fence of the update is the one that was read. -/
def claimReceipt (claim : EffectClaim) (row : EffectReceipt) : Option EffectReceipt :=
  if isClaimable row claim.claimedAt claim.isReconciliation then
    casStatusUpdate actionEffectDelivering row.status true fun status =>
      { row with status, attemptCount := row.attemptCount + 1, workerId := some claim.workerId
                 leaseToken := some claim.leaseToken, leaseExpiresAt := some claim.leaseExpiresAt
                 fencingToken := row.fencingToken + 1, retryAt := none }
  else none

/-- The lease of a worker, as its claim returned it. -/
structure EffectLease where
  workerId : String
  leaseToken : String
  fencingToken : ℕ
  deriving DecidableEq

def EffectLease.Matches (lease : EffectLease) (row : EffectReceipt) : Prop :=
  row.workerId = some lease.workerId ∧ row.leaseToken = some lease.leaseToken ∧
    row.fencingToken = lease.fencingToken

instance EffectLease.decidableMatches (lease : EffectLease) (row : EffectReceipt) :
    Decidable (lease.Matches row) :=
  inferInstanceAs (Decidable (_ ∧ _ ∧ _))

def startDispatch (lease : EffectLease) (startedAt : String) (row : EffectReceipt) :
    Option EffectReceipt :=
  if row.status = .delivering ∧ lease.Matches row ∧ row.cancelRequestedAt = none ∧
      row.dispatchStartedAt = none then
    some { row with dispatchStartedAt := some startedAt }
  else none

/-- Nothing where the row is terminal. -/
def requestCancel (reason : Option String) (requestedAt : String) (row : EffectReceipt) :
    Option EffectReceipt :=
  if row.status.IsTerminal then none
  else if row.status = .delivering ∧ row.dispatchStartedAt.isSome then
    some { row with cancelRequestedAt := some requestedAt, cancelReason := reason }
  else
    casStatusUpdate actionEffectCancelled row.status true fun status =>
      { row with status, cancelRequestedAt := some requestedAt, cancelReason := reason
                 workerId := none, leaseToken := none, leaseExpiresAt := none
                 fencingToken := row.fencingToken + 1, completedAt := some requestedAt }

def retryReceipt (requestedAt : String) (row : EffectReceipt) : Option EffectReceipt :=
  if row.phase ≠ .afterCommit then none
  else
    casStatusUpdate actionEffectManualRetry row.status true fun status =>
      { row with status, maxAttempts := row.attemptCount + 1, retryAt := some requestedAt
                 workerId := none, leaseToken := none, leaseExpiresAt := none
                 dispatchStartedAt := none, completedAt := none }

/-- What an operator found out about an effect whose outcome is unknown. -/
inductive EffectResolution where
  | confirmedDelivered | confirmedNotDelivered
  deriving DecidableEq

def reconcileReceipt (resolution : EffectResolution) (evidence : Json)
    (externalId : Option String) (reconciledAt : String) (row : EffectReceipt) :
    Option EffectReceipt :=
  match resolution with
  | .confirmedDelivered =>
    casStatusUpdate actionEffectReconciledSucceeded row.status true fun status =>
      { row with
        status, completedAt := some reconciledAt
        outcome := ⟨some (.obj [("reconciled", .bool true), ("evidence", evidence)]), none,
          externalId.or row.outcome.externalExecutionId⟩ }
  | .confirmedNotDelivered =>
    casStatusUpdate actionEffectReconciledDeadLetter row.status true fun status =>
      { row with status, completedAt := some reconciledAt }

/-- `_terminal_transition`. A worker decides on one of these statuses. -/
def terminalTransition : EffectStatus → Option (StatusTransition EffectStatus)
  | .succeeded => some actionEffectSucceeded
  | .retryWait => some actionEffectRetryWait
  | .deadLetter => some actionEffectDeadLetter
  | .outcomeUnknown => some actionEffectOutcomeUnknown
  | .cancelled => some actionEffectCancelled
  | .pending | .delivering => none

def completeReceipt (lease : EffectLease) (status : EffectStatus) (outcome : EffectOutcome)
    (retryAt : Option String) (completedAt : String) (row : EffectReceipt) :
    Option EffectReceipt := do
  let transition ← terminalTransition status
  let isCurrent := decide (lease.Matches row) &&
    row.leaseExpiresAt.any fun leaseExpiresAt => decide (completedAt ≤ leaseExpiresAt)
  casStatusUpdate transition row.status isCurrent fun status =>
    { row with
      status, outcome, retryAt
      dispatchStartedAt := if status = .retryWait then none else row.dispatchStartedAt
      completedAt := if status = .retryWait then none else some completedAt }

/-! ### Workers -/

namespace Effects

/-- How the work on an effect ended, before it is recorded. -/
inductive Ending where
  | failure (isRetryable : Bool)
  /-- The outcome is not known. -/
  | ambiguous
  | success
  deriving DecidableEq

inductive Stage where
  | claimed
  /-- The start of the dispatch is committed. -/
  | dispatched
  /-- The executor has been called. -/
  | executing
  | ended (ending : Ending)
  /-- What is going to be recorded. -/
  | recording (status : EffectStatus) (retryAt : Option String)
  | done
  deriving DecidableEq

/-- A call of `_deliver_one`, or of `execute_before`, that has claimed the receipt. -/
structure Delivery where
  lease : EffectLease
  attemptCount : ℕ
  maxAttempts : ℕ
  /-- The dispatch that the worker saw when it decided how to go on. -/
  dispatchStartedAt : Option String
  stage : Stage

/-- The status that a worker records. Before a commit nothing is retried, and whether a
cancellation was requested is not asked. -/
def endingStatus (phase : EffectPhase) (delivery : Delivery) (isCancelRequested : Bool) :
    Ending → EffectStatus
  | .success => .succeeded
  | .ambiguous => .outcomeUnknown
  | .failure isRetryable =>
    match phase with
    | .beforeCommit => .deadLetter
    | .afterCommit =>
      if isCancelRequested then .cancelled
      else if isRetryable ∧ delivery.attemptCount < delivery.maxAttempts then .retryWait
      else .deadLetter

/-- A receipt and the calls of its workers, each under a number that is used once. -/
structure State where
  receipt : EffectReceipt
  deliveries : ℕ → Option Delivery

def State.initial (phase : EffectPhase) (maxAttempts : ℕ) : State :=
  ⟨insertedReceipt phase maxAttempts, fun _ => none⟩

inductive Event where
  /-- Before a commit a worker goes by the dispatch in the row as it read it before its claim,
  `seen`, and after a commit by the one in the row that its claim returned. -/
  | claim (call : ℕ) (claim : EffectClaim) (seen : Option String)
  /-- The worker ends its work without a dispatch: what it saw, or an authorization that failed or
  that suppressed the delivery. -/
  | giveUp (call : ℕ) (ending : Ending)
  | startDispatch (call : ℕ) (startedAt : String)
  /-- The worker calls the executor. -/
  | execute (call : ℕ)
  | executorEnds (call : ℕ) (ending : Ending)
  /-- The worker reads the row and decides what to record. -/
  | decide (call : ℕ) (retryAt : String)
  | complete (call : ℕ) (status : EffectStatus) (outcome : EffectOutcome) (completedAt : String)
  | requestCancel (reason : Option String) (requestedAt : String)
  | retry (requestedAt : String)
  | reconcile (resolution : EffectResolution) (evidence : Json) (externalId : Option String)
      (reconciledAt : String)

def State.setStage (s : State) (call : ℕ) (delivery : Delivery) (stage : Stage) : State :=
  { s with deliveries := Function.update s.deliveries call (some { delivery with stage }) }

def claimedDelivery (claim : EffectClaim) (seen : Option String) (claimed : EffectReceipt) :
    Delivery :=
  { lease := ⟨claim.workerId, claim.leaseToken, claimed.fencingToken⟩
    attemptCount := claimed.attemptCount, maxAttempts := claimed.maxAttempts
    dispatchStartedAt := if claimed.phase = .afterCommit then claimed.dispatchStartedAt else seen
    stage := .claimed }

/-- How a worker may end its work without calling the executor: a dispatch that it saw is left
alone, and its outcome is not known, and neither is it when `start_dispatch` raises. -/
def mayGiveUp (phase : EffectPhase) (delivery : Delivery) (ending : Ending) : Bool :=
  match delivery.stage with
  | .claimed =>
    if delivery.dispatchStartedAt.isSome then ending = .ambiguous else phase = .afterCommit
  | .dispatched => phase = .afterCommit && ending = .ambiguous
  | _ => false

def State.claim (s : State) (call : ℕ) (claim : EffectClaim) (seen : Option String) :
    Option State := do
  let claimed ← claimReceipt claim s.receipt
  return ⟨claimed, Function.update s.deliveries call (some (claimedDelivery claim seen claimed))⟩

def State.giveUp (s : State) (call : ℕ) (ending : Ending) : Option State := do
  let d ← s.deliveries call
  if mayGiveUp s.receipt.phase d ending then return s.setStage call d (.ended ending) else none

def State.startDispatch (s : State) (call : ℕ) (startedAt : String) : Option State := do
  let d ← s.deliveries call
  if d.stage = .claimed ∧ d.dispatchStartedAt = none then
    let receipt ← Runtime.startDispatch d.lease startedAt s.receipt
    return { s.setStage call d .dispatched with receipt }
  else none

def State.execute (s : State) (call : ℕ) : Option State := do
  let d ← s.deliveries call
  if d.stage = .dispatched then return s.setStage call d .executing else none

def State.executorEnds (s : State) (call : ℕ) (ending : Ending) : Option State := do
  let d ← s.deliveries call
  if d.stage = .executing then return s.setStage call d (.ended ending) else none

def State.decide (s : State) (call : ℕ) (retryAt : String) : Option State := do
  let d ← s.deliveries call
  match d.stage with
  | .ended ending =>
    let status := endingStatus s.receipt.phase d s.receipt.cancelRequestedAt.isSome ending
    return s.setStage call d (.recording status (if status = .retryWait then retryAt else none))
  | _ => none

def State.complete (s : State) (call : ℕ) (status : EffectStatus) (outcome : EffectOutcome)
    (completedAt : String) : Option State := do
  let d ← s.deliveries call
  match d.stage with
  | .recording recorded retryAt =>
    if recorded = status then
      let receipt ← completeReceipt d.lease status outcome retryAt completedAt s.receipt
      return { s.setStage call d .done with receipt }
    else none
  | _ => none

/-- An operator changes the row. -/
def State.operate (s : State) (update : EffectReceipt → Option EffectReceipt) : Option State :=
  (update s.receipt).map fun receipt => { s with receipt }

def next (s : State) : Event → Option State
  | .claim call claim seen =>
    -- only a worker that runs an action before its commit claims to reconcile
    if (s.deliveries call).isNone ∧
        (claim.isReconciliation = true → s.receipt.phase = .beforeCommit) then
      s.claim call claim seen
    else none
  | .giveUp call ending => s.giveUp call ending
  | .startDispatch call startedAt => s.startDispatch call startedAt
  | .execute call => s.execute call
  | .executorEnds call ending => s.executorEnds call ending
  | .decide call retryAt => s.decide call retryAt
  | .complete call status outcome completedAt => s.complete call status outcome completedAt
  | .requestCancel reason requestedAt =>
    if s.receipt.phase = .afterCommit then s.operate (requestCancel reason requestedAt) else none
  | .retry requestedAt => s.operate (retryReceipt requestedAt)
  | .reconcile resolution evidence externalId reconciledAt =>
    s.operate (reconcileReceipt resolution evidence externalId reconciledAt)

end Effects

end FoundryLite.Runtime
