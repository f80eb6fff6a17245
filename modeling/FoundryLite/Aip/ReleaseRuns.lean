import FoundryLite.Aip.Confirmations

/-!
# Governed release runs

A release action is approved by a human in a widget, and its approval is a receipt, which is
consumed by the transaction that starts the action. One run keeps the attempts at one action. An
attempt whose lease is over is recovered by the next one, without another receipt. A run that failed
is tried again with a receipt of its own, where the failure says that nothing was committed.

The operation of an attempt is no part of the ledger: it may commit at any moment before it returns,
or before its worker dies. What is written of it afterwards is fenced by the number of the attempt,
and an error is written as not committed by its type.

The rows are read and written in one transaction, and each update is conditional on the whole
budget that was read, so that a call is one step here. Hashes are injective: requests have one
fingerprint when they are equal.
-/

namespace FoundryLite.Aip.Release

open FoundryLite.Runtime (StatusTransition casStatusUpdate)
open FoundryLite.Aip.Confirmation (AiRunStatus aiRunSucceeded aiRunFailed)

/-! ### Rows -/

def aiRunRetryRunning : StatusTransition AiRunStatus := ⟨[.failed], .running⟩

def receiptTtlSeconds : ℕ := 300

def recoveryLeaseSeconds : ℕ := 30

def receiptExpiresAt (now : ℕ) : ℕ := now + receiptTtlSeconds

/-- A receipt, which is `running` until it is consumed or revoked. -/
structure Receipt (B : Type) where
  binding : B
  status : AiRunStatus
  expiresAt : ℕ
  deriving DecidableEq

/-- The preparation of an action, with the receipt it has issued last. -/
structure Preparation (B : Type) where
  binding : B
  receiptId : ℕ
  deriving DecidableEq

structure RecoveryLease where
  attempt : ℕ
  startedAt : ℕ
  deriving DecidableEq

/-- The run of an action. Its error is kept by whether it is known that nothing was committed, and
its one tool call by the result. -/
structure ActionRun (B O : Type) where
  binding : B
  status : AiRunStatus
  startedAt : ℕ
  recoveryLease : Option RecoveryLease
  failedRetryCount : ℕ
  isKnownNotCommitted : Bool
  toolCall : Option O
  deriving DecidableEq

variable {W B O : Type} [DecidableEq W] [DecidableEq B] [DecidableEq O]

def actionRecord (binding : B) (now : ℕ) : ActionRun B O where
  binding := binding
  status := .running
  startedAt := now
  recoveryLease := none
  failedRetryCount := 0
  isKnownNotCommitted := false
  toolCall := none

def ActionRun.recoveryAttempt (run : ActionRun B O) : ℕ :=
  (run.recoveryLease.map RecoveryLease.attempt).getD 0

/-- When the lease of the current attempt began. -/
def ActionRun.anchor (run : ActionRun B O) : ℕ :=
  (run.recoveryLease.map RecoveryLease.startedAt).getD run.startedAt

/-- Where `receipt_conflict_reason` finds none. -/
def isUsableReceipt (receipt : Receipt B) (binding : B) (now : ℕ) : Bool :=
  decide (receipt.binding = binding ∧ receipt.status = .running ∧ now < receipt.expiresAt)

/-- `recovery_budget`, and the update of `claim_execution_run_recovery`. -/
def ActionRun.recover (run : ActionRun B O) (binding : B) (now : ℕ) : Option (ActionRun B O) :=
  if run.binding = binding ∧ run.status = .running ∧ run.anchor + recoveryLeaseSeconds ≤ now then
    some { run with recoveryLease := some ⟨run.recoveryAttempt + 1, now⟩ }
  else none

/-- Where `require_safe_failed_retry` passes. -/
def ActionRun.isSafelyRetryable (run : ActionRun B O) (binding : B) : Bool :=
  decide (run.binding = binding ∧ run.status = .failed ∧ run.isKnownNotCommitted = true)

/-- `failed_retry_budget`, and the update of `_start_failed_retry`. -/
def ActionRun.retryFailed (run : ActionRun B O) (binding : B) (now : ℕ) :
    Option (ActionRun B O) :=
  if run.isSafelyRetryable binding then
    casStatusUpdate aiRunRetryRunning run.status true fun status =>
      { run with
        status := status
        recoveryLease := some ⟨run.recoveryAttempt + 1, now⟩
        failedRetryCount := run.failedRetryCount + 1
        isKnownNotCommitted := false }
  else none

/-- `_complete_run`, of a run that is running. -/
def ActionRun.complete (run : ActionRun B O) (attempt : ℕ) (output : O) : Option (ActionRun B O) :=
  if run.recoveryAttempt = attempt ∧ run.status = .running then
    casStatusUpdate aiRunSucceeded run.status
      (run.toolCall.all fun existing => decide (existing = output)) fun status =>
        { run with status := status, isKnownNotCommitted := false, toolCall := some output }
  else none

def ActionRun.fail (run : ActionRun B O) (attempt : ℕ) (isKnownNotCommitted : Bool) :
    Option (ActionRun B O) :=
  if run.status = .running ∧ run.recoveryAttempt = attempt then
    casStatusUpdate aiRunFailed run.status true fun status =>
      { run with status := status, isKnownNotCommitted := isKnownNotCommitted }
  else none

/-! ### State -/

/-- How the operation of an attempt came back. -/
inductive Outcome (O : Type) where
  | output (output : O)
  | outcomeUnknown
  /-- An error of the application, and `is_known_not_committed_error` of its type. -/
  | error (isKnownNotCommitted : Bool)
  deriving DecidableEq

/-- What a worker is at, of the attempt that it has started. -/
inductive Job (O : Type) where
  | executing (attempt : ℕ)
  | returned (attempt : ℕ) (outcome : Outcome O)
  deriving DecidableEq

def Job.attempt : Job O → ℕ
  | .executing attempt => attempt
  | .returned attempt _ => attempt

inductive StartKind where
  | first | recovery | failedRetry
  deriving DecidableEq

/-- The audit of an attempt that was started, and the receipt consumed for it. -/
structure Start (W : Type) where
  attempt : ℕ
  worker : W
  kind : StartKind
  receiptId : Option ℕ
  deriving DecidableEq

structure State (W B O : Type) where
  preparation : Option (Preparation B)
  receipts : ℕ → Option (Receipt B)
  /-- How many receipts were drawn. -/
  drawn : ℕ
  run : Option (ActionRun B O)
  jobs : W → Option (Job O)
  /-- The mutations that operations have committed: the attempt, and the result. -/
  commits : List (ℕ × O)
  starts : List (Start W)

def State.initial : State W B O where
  preparation := none
  receipts _ := none
  drawn := 0
  run := none
  jobs _ := none
  commits := []
  starts := []

def State.setJob (s : State W B O) (w : W) (job : Option (Job O)) : State W B O :=
  { s with jobs := Function.update s.jobs w job }

def State.setRun (s : State W B O) (run : ActionRun B O) : State W B O :=
  { s with run := some run }

def State.setReceipt (s : State W B O) (receiptId : ℕ) (receipt : Receipt B) : State W B O :=
  { s with receipts := Function.update s.receipts receiptId (some receipt) }

/-- A worker has the run as the attempt that it starts leaves it. -/
def State.start (s : State W B O) (w : W) (run : ActionRun B O) (kind : StartKind)
    (receiptId : Option ℕ) : State W B O :=
  { s with
    run := some run
    jobs := Function.update s.jobs w (some (.executing run.recoveryAttempt))
    starts := ⟨run.recoveryAttempt, w, kind, receiptId⟩ :: s.starts }

/-! ### Receipts -/

/-- The receipt is no longer `running`: it is consumed, or it is revoked. -/
def State.endReceipt (s : State W B O) (receiptId : ℕ) (receipt : Receipt B) :
    Option (State W B O) :=
  (casStatusUpdate aiRunSucceeded receipt.status true fun status =>
    { receipt with status := status }).map (s.setReceipt receiptId)

/-- `_consume_receipt`. -/
def consumeReceipt (s : State W B O) (receiptId : ℕ) (binding : B) (now : ℕ) :
    Option (State W B O) := do
  let receipt ← s.receipts receiptId
  if isUsableReceipt receipt binding now then s.endReceipt receiptId receipt else none

/-- A fresh receipt, which the preparation names from then on. -/
def State.issue (s : State W B O) (binding : B) (now : ℕ) : State W B O :=
  { s with
    preparation := some ⟨binding, s.drawn⟩
    receipts := Function.update s.receipts s.drawn
      (some ⟨binding, .running, receiptExpiresAt now⟩)
    drawn := s.drawn + 1 }

/-- `prepare`, and `rotate_preparation_receipt` of a preparation that is there. -/
def prepare (s : State W B O) (binding : B) (now : ℕ) : Option (State W B O) :=
  match s.preparation with
  | none => some (s.issue binding now)
  | some preparation => do
    let receipt ← s.receipts preparation.receiptId
    if preparation.binding ≠ binding ∨ receipt.binding ≠ binding then none
    else if receipt.status = .running then
      let revoked ← s.endReceipt preparation.receiptId receipt
      pure (revoked.issue binding now)
    else if s.run.any fun run => run.isSafelyRetryable binding then some (s.issue binding now)
    else none

/-! ### Steps -/

inductive Event (W B O : Type) where
  | prepare (binding : B) (now : ℕ)
  | claim (w : W) (binding : B) (receiptId : ℕ) (now : ℕ)
  | recover (w : W) (binding : B) (now : ℕ)
  | retryFailed (w : W) (binding : B) (receiptId : ℕ) (now : ℕ)
  /-- The operation of a worker commits its mutation. -/
  | commit (w : W) (output : O)
  | return (w : W) (outcome : Outcome O)
  | complete (w : W)
  | fail (w : W)
  | defer (w : W)
  | die (w : W)
  deriving DecidableEq

/-- The worker an event is of. -/
def Event.worker : Event W B O → Option W
  | .prepare _ _ => none
  | .claim w _ _ _ | .recover w _ _ | .retryFailed w _ _ _ | .commit w _ | .return w _ => some w
  | .complete w | .fail w | .defer w | .die w => some w

/-- What an event does, where it can happen. -/
def next (s : State W B O) : Event W B O → Option (State W B O)
  | .prepare binding now => prepare s binding now
  | .claim w binding receiptId now =>
    if s.jobs w ≠ none ∨ s.run ≠ none then none
    else (consumeReceipt s receiptId binding now).map fun consumed =>
      consumed.start w (actionRecord binding now) .first (some receiptId)
  | .recover w binding now =>
    if s.jobs w ≠ none then none
    else (s.run.bind fun run => run.recover binding now).map fun recovered =>
      s.start w recovered .recovery none
  | .retryFailed w binding receiptId now =>
    if s.jobs w ≠ none then none
    else do
      let reopened ← s.run.bind fun run => run.retryFailed binding now
      let consumed ← consumeReceipt s receiptId binding now
      pure (consumed.start w reopened .failedRetry (some receiptId))
  | .commit w output =>
    match s.jobs w with
    | some (.executing attempt) => some { s with commits := (attempt, output) :: s.commits }
    | _ => none
  | .return w outcome =>
    match s.jobs w, outcome with
    -- An operation returns what it has committed, or finds what an attempt before it has.
    | some (.executing attempt), .output output =>
      if output ∈ s.commits.map Prod.snd then
        some (s.setJob w (some (.returned attempt (.output output))))
      else none
    | some (.executing attempt), outcome => some (s.setJob w (some (.returned attempt outcome)))
    | _, _ => none
  | .complete w =>
    match s.jobs w with
    | some (.returned attempt (.output output)) =>
      -- A lease that is lost, or another result, is an error which leaves the run as it is.
      match s.run.bind fun run => run.complete attempt output with
      | some completed => some ((s.setRun completed).setJob w none)
      | none => some (s.setJob w none)
    | _ => none
  | .fail w =>
    match s.jobs w with
    | some (.returned attempt (.error isKnownNotCommitted)) =>
      match s.run.bind fun run => run.fail attempt isKnownNotCommitted with
      | some failed => some ((s.setRun failed).setJob w none)
      | none => some (s.setJob w none)
    | _ => none
  | .defer w =>
    match s.jobs w with
    | some (.returned _ .outcomeUnknown) => some (s.setJob w none)
    | _ => none
  | .die w => some (s.setJob w none)

end FoundryLite.Aip.Release
