import FoundryLite.Dataset.Transactions
import FoundryLite.Library.Runs
import FoundryLite.Runtime.StatusCas

/-!
# Replays of a dead-letter record

A record that an archive could not take is quarantined in a row of its own. A request to retry it
gives the row a run, a replay claims a lease on the row, opens a dataset transaction for the run (or
takes up the one that an earlier replay of the run left open), commits the record's row to the
dataset and resolves the record. Each of these is a database transaction of its own; the last one
commits the dataset transaction, the run and the record together.

A retry and a discard decide on the row as they read it and write by a conditional update, so
another request may come between; so may a claim, which takes the run from what it read. A replay
that was overtaken goes on until its next update: what it may do to the dataset transaction and to
the run is not fenced by its lease, what it may do to the record is.
-/

namespace FoundryLite.RecordDlq

open FoundryLite.Runtime (StatusTransition casStatusUpdate)
open Dataset (Store FinalizationRequest VersionRow Target)

/-! ### The record -/

inductive RecordStatus where
  | quarantined | replayRequested | replaying | resolved | discarded
  deriving DecidableEq

inductive ReplayStatus where
  | notRequested | requested | replaying | succeeded | failed | discarded
  deriving DecidableEq

/-- The columns of a row of `dead_letter_records` that its replays read or write. -/
structure DeadLetterRecord where
  id : String
  status : RecordStatus
  replayStatus : ReplayStatus
  replayRunId : Option String
  replayIdempotencyKey : Option String
  replayRequestedAt : Option String
  replayLeaseToken : Option String
  replayStartedAt : Option String
  replayLeaseExpiresAt : Option String
  discardedAt : Option String
  attempts : ℕ
  /-- `recordDlqKind` of the metadata. -/
  recordDlqKind : Option String
  deriving DecidableEq

/-- A record as it is quarantined. -/
def quarantinedRecord (id : String) (recordDlqKind : Option String) : DeadLetterRecord :=
  { id, status := .quarantined, replayStatus := .notRequested, replayRunId := none
    replayIdempotencyKey := none, replayRequestedAt := none, replayLeaseToken := none
    replayStartedAt := none, replayLeaseExpiresAt := none, discardedAt := none, attempts := 1
    recordDlqKind }

def replayRequestedTransition : StatusTransition RecordStatus := ⟨[.quarantined], .replayRequested⟩

def replayRunningTransition : StatusTransition RecordStatus :=
  ⟨[.replayRequested, .replaying], .replaying⟩

def replaySucceededTransition : StatusTransition RecordStatus :=
  ⟨[.replayRequested, .replaying], .resolved⟩

def replayFailedTransition : StatusTransition RecordStatus :=
  ⟨[.replayRequested, .replaying], .quarantined⟩

def discardedTransition : StatusTransition RecordStatus := ⟨[.quarantined], .discarded⟩

/-! ### Requests -/

section Requests

variable (read current : DeadLetterRecord) (idempotencyKey : String)

def isIdempotentReplay : Bool :=
  read.replayIdempotencyKey = some idempotencyKey && read.replayRunId.isSome &&
    read.replayStatus ∈ [ReplayStatus.succeeded, .failed]

def isResumableReplay : Bool :=
  read.replayIdempotencyKey = some idempotencyKey && read.replayRunId.isSome &&
    read.replayStatus ∈ [ReplayStatus.requested, .replaying]

def refuse (holds : Bool) (message : String) (recordId : String) : Checked Unit :=
  if holds then throw (conflictDetected message [("record_id", .str recordId)]) else pure ()

def ensureRetryable : Checked Unit := do
  refuse (read.recordDlqKind = some "data_quality_contract")
    "data quality quarantine records require contract-specific remediation" read.id
  refuse (read.recordDlqKind = some "transform_execution")
    "transform quarantine records require rerunning the transform" read.id
  refuse (read.replayIdempotencyKey.any (· ≠ idempotencyKey) && read.replayStatus ≠ .failed)
    "dead-letter record replay already has a different key" read.id
  refuse (read.status ∈ [RecordStatus.resolved, .discarded])
    "dead-letter record is already closed" read.id
  refuse (read.status ≠ .quarantined) "dead-letter record is not retryable" read.id

/-- `update_dead_letter_record_replay_requested`. -/
def replayRequested (replayRunId requestedAt : String) : Option DeadLetterRecord :=
  casStatusUpdate replayRequestedTransition current.status true fun status =>
    { current with
      status, replayStatus := .requested, replayRunId := some replayRunId
      replayIdempotencyKey := some idempotencyKey, replayRequestedAt := some requestedAt
      replayLeaseToken := none, replayStartedAt := none, replayLeaseExpiresAt := none }

/-- `_retry_in_transaction`, of a request that read the row before: the row afterwards, and whether
the request had been answered already. -/
def retryInTransaction (replayRunId requestedAt : String) : Checked (DeadLetterRecord × Bool) := do
  if isIdempotentReplay read idempotencyKey then return (current, true)
  if isResumableReplay read idempotencyKey then return (current, false)
  ensureRetryable read idempotencyKey
  match replayRequested current idempotencyKey replayRunId requestedAt with
  | some updated => return (updated, false)
  | none =>
    if isIdempotentReplay current idempotencyKey then return (current, true)
    if isResumableReplay current idempotencyKey then return (current, false)
    ensureRetryable current idempotencyKey
    throw (conflictDetected "dead-letter record replay changed concurrently"
      [("record_id", .str current.id)])

/-- `discard_dead_letter_record`. -/
def discardDeadLetterRecord (discardedAt : String) : Option DeadLetterRecord :=
  casStatusUpdate discardedTransition current.status true fun status =>
    { current with status, replayStatus := .discarded, discardedAt := some discardedAt }

/-- `_discard_in_transaction`, of a request that read the row before. -/
def discardInTransaction (discardedAt : String) : Checked DeadLetterRecord := do
  if read.status = .discarded then return current
  refuse (read.status ∈ [RecordStatus.replayRequested, .replaying])
    "dead-letter record replay is already requested" read.id
  match discardDeadLetterRecord current discardedAt with
  | some updated => return updated
  | none => throw (notFound "dead-letter record not found" [("record_id", .str read.id)])

end Requests

/-! ### The lease of a replay -/

section Lease

variable (row : DeadLetterRecord) (replayRunId token : String)

def claimDeadLetterRecordReplay (startedAt expiresAt : String) : Option DeadLetterRecord :=
  casStatusUpdate replayRunningTransition row.status
    (row.replayRunId = some replayRunId && (row.status = .replayRequested ||
      row.replayLeaseExpiresAt.any fun leaseExpiresAt => decide (leaseExpiresAt < startedAt)))
    fun status => { row with
      status, replayStatus := .replaying, replayLeaseToken := some token
      replayStartedAt := some startedAt, replayLeaseExpiresAt := some expiresAt }

/-- `_dead_letter_replay_conditions`. -/
def holdsReplay : Bool := row.replayRunId = some replayRunId && row.replayLeaseToken = some token

def replaySucceeded : Option DeadLetterRecord :=
  casStatusUpdate replaySucceededTransition row.status (holdsReplay row replayRunId token)
    fun status => { row with
      status, replayStatus := .succeeded, replayRunId := some replayRunId
      replayLeaseToken := some token }

def replayFailed : Option DeadLetterRecord :=
  casStatusUpdate replayFailedTransition row.status (holdsReplay row replayRunId token)
    fun status => { row with
      status, replayStatus := .failed, replayRunId := some replayRunId
      replayLeaseToken := some token, attempts := row.attempts + 1 }

end Lease

/-! ### Sync runs -/

inductive SyncRunStatus where
  | extracting | committed | failed
  deriving DecidableEq

/-- A row of `sync_runs`. -/
structure SyncRun where
  transactionId : String
  status : SyncRunStatus
  committedVersionId : Option String
  deriving DecidableEq

/-- The sync runs of the replays, by run. -/
abbrev SyncRuns := Dict String SyncRun

def syncRunCommitted : StatusTransition SyncRunStatus := ⟨[.extracting], .committed⟩

def syncRunFailed : StatusTransition SyncRunStatus := ⟨[.extracting], .failed⟩

/-- `update_sync_run_terminal`. -/
def updateSyncRunTerminal (syncRuns : SyncRuns) (runId : String)
    (transition : StatusTransition SyncRunStatus) (committedVersionId : Option String) :
    Option SyncRuns := do
  let row ← syncRuns.get? runId
  let updated ← casStatusUpdate transition row.status true fun status =>
    { row with status, committedVersionId }
  return syncRuns.insert runId updated

/-- `fail_sync_run`. -/
def failSyncRun (syncRuns : SyncRuns) (runId : String) : Option SyncRuns := do
  let row ← syncRuns.get? runId
  let updated ← casStatusUpdate syncRunFailed row.status true fun status => { row with status }
  return syncRuns.insert runId updated

/-- `start_connector_sync_run`: the transaction of the run. -/
def startConnectorSyncRun (store : Store) (syncRuns : SyncRuns) (target : Target)
    (runId transactionId : String) : Checked (String × Store × SyncRuns) :=
  match syncRuns.get? runId with
  | some row =>
    if row.status = .extracting then pure (row.transactionId, store, syncRuns)
    else throw (conflictDetected "sync run is not resumable" [("sync_run_id", .str runId)])
  | none => do
    let (_, store) ← Dataset.openDatasetTransaction target .append transactionId store
    pure (transactionId, store, syncRuns.insert runId ⟨transactionId, .extracting, none⟩)

/-- `abort_open_transaction_and_fail_run`. -/
def abortOpenTransactionAndFailRun (tenantId : String) (store : Store) (syncRuns : SyncRuns)
    (transactionId runId : String) : Option (Store × SyncRuns) :=
  match Dataset.abortTransaction tenantId transactionId store with
  | .ok (isAborted, store') =>
    if isAborted || (store'.transactionById transactionId).any fun tx =>
        tx.tenantId = tenantId && tx.status = .aborted then
      (failSyncRun syncRuns runId).map fun syncRuns => (store', syncRuns)
    else none
  | .error _ => none

/-! ### Replays -/

inductive ReplayPhase where
  | claimed
  | prepared (transactionId : String)
  /-- The replay ended in this error, after its transaction was opened. -/
  | failing (transactionId : String) (code : ErrorCode)
  /-- The failure is yet to be recorded in the row. -/
  | recording
  | ended
  deriving DecidableEq

/-- A replay that has claimed the record, for this run. -/
structure Replay where
  runId : String
  phase : ReplayPhase
  deriving DecidableEq

structure State where
  record : DeadLetterRecord
  /-- Every dataset transaction and version, those of replays among them. -/
  store : Store
  syncRuns : SyncRuns
  /-- The row that a call has read. -/
  reads : ℕ → Option DeadLetterRecord
  /-- The replays, by lease token. -/
  replays : Dict String Replay

def State.initial (id : String) (recordDlqKind : Option String) : State :=
  ⟨quarantinedRecord id recordDlqKind, .empty, ∅, fun _ => none, ∅⟩

/-- The transaction was opened for a replay of the record. -/
def IsReplayTransaction (s : State) (transactionId : String) : Prop :=
  ∃ runId row, s.syncRuns.get? runId = some row ∧ row.transactionId = transactionId

/-- A replay transaction, as a check. -/
def isReplayTransaction (s : State) (transactionId : String) : Bool :=
  s.syncRuns.entries.any fun entry => entry.2.transactionId = transactionId

def State.setPhase (s : State) (token : String) (replay : Replay) (phase : ReplayPhase) : State :=
  { s with replays := s.replays.insert token ⟨replay.runId, phase⟩ }

inductive Event where
  /-- A request reads the row. -/
  | read (call : ℕ)
  | retry (call : ℕ) (idempotencyKey replayRunId requestedAt : String)
  | discard (call : ℕ) (discardedAt : String)
  /-- A replay that read the row claims it, under a token that it draws. -/
  | claim (call : ℕ) (token startedAt expiresAt : String)
  | prepare (token : String) (target : Target) (transactionId : String)
  /-- An error before the transaction is opened: a dataset that is not there, a refused insertion. -/
  | prepareFails (token : String)
  /-- The file of the row cannot be written, or the commit fails outside the rules below. -/
  | stageFails (token : String) (code : ErrorCode)
  /-- The commit, and whether its caller learns of it. -/
  | finalise (token : String) (target : Target) (versionId : String) (stagedFiles : List String)
      (isAcknowledged : Bool)
  /-- The checks of the dataset do not accept the row. -/
  | block (token : String)
  | abort (token : String)
  | recordFailure (token : String)
  /-- The process of the replay is gone. -/
  | crash (token : String)
  /-- The watchdog claims a transaction that was left open, and aborts it. -/
  | claimStale (transactionId : String)
  | abortStale (transactionId : String)
  /-- A dataset transaction of somebody else. -/
  | openOther (target : Target) (txType : Dataset.TxType) (transactionId : String)
  | finaliseOther (request : FinalizationRequest)

/-- The error is raised by `_abort_stream_after_error` again and not passed over: the failure is
not recorded in the row. -/
def isRaisedAgain (code : ErrorCode) : Bool :=
  code ∈ [ErrorCode.notFound, .conflictDetected, .invariantViolation]

/-- What a call needs and does not find is an error. -/
def orRaise {α : Type} (error : FoundryLiteError) : Option α → Checked α
  | some a => pure a
  | none => throw error

@[simp]
theorem orRaise_eq_ok_iff {α : Type} {error : FoundryLiteError} {value : Option α} {a : α} :
    orRaise error value = .ok a ↔ value = some a := by
  cases value with
  | none => simp [orRaise]
  | some b => simp [orRaise]

/-- What a failure after the version was persisted is raised as. -/
def persistenceError : FoundryLiteError :=
  invariantViolation "dataset commit metadata persistence failed"

/-- The commit of a replay: the dataset transaction, the run and the record, or none of them. -/
def finalizeReplay (s : State) (token runId : String) (request : FinalizationRequest) :
    Checked State := do
  let (_, store) ← Dataset.finalizeRequest request s.store
  let syncRuns ← orRaise persistenceError
    (updateSyncRunTerminal s.syncRuns runId syncRunCommitted (some request.versionId))
  let record ← orRaise persistenceError (replaySucceeded s.record runId token)
  pure { s with store, syncRuns, record }

/-- The watchdog fails the run of the transaction it aborted, if that was still extracting. -/
def failAssociatedSyncRun (syncRuns : SyncRuns) (transactionId : String) : SyncRuns :=
  match syncRuns.entries.find? fun entry => entry.2.transactionId = transactionId with
  | some (runId, _) => (failSyncRun syncRuns runId).getD syncRuns
  | none => syncRuns

section Steps

variable (tenantId : String) (s : State)

def State.setRecord (record : DeadLetterRecord) : State := { s with record }

def State.retry (call : ℕ) (idempotencyKey replayRunId requestedAt : String) : Option State := do
  let read ← s.reads call
  match retryInTransaction read s.record idempotencyKey replayRunId requestedAt with
  | .ok (record, _) => return s.setRecord record
  | .error _ => return s

def State.discard (call : ℕ) (discardedAt : String) : Option State := do
  let read ← s.reads call
  match discardInTransaction read s.record discardedAt with
  | .ok record => return s.setRecord record
  | .error _ => return s

/-- `_claim_replay_lease`: the run is the one that the call read. -/
def State.claim (call : ℕ) (token startedAt expiresAt : String) : Option State := do
  let read ← s.reads call
  let runId ← read.replayRunId
  let record ← claimDeadLetterRecordReplay s.record runId token startedAt expiresAt
  if (s.replays.get? token).isNone then
    return { s with record, replays := s.replays.insert token ⟨runId, .claimed⟩ }
  else none

/-- A replay in one of its phases. -/
def State.replayIn (token : String) (isIn : ReplayPhase → Bool) : Option Replay :=
  (s.replays.get? token).filter fun replay => isIn replay.phase

def State.prepare (token : String) (target : Target) (transactionId : String) : Option State := do
  let replay ← s.replayIn token (· = .claimed)
  match startConnectorSyncRun s.store s.syncRuns { target with tenantId } replay.runId
      transactionId with
  | .ok (transactionId, store, syncRuns) =>
    return { s with store, syncRuns }.setPhase token replay (.prepared transactionId)
  | .error _ => return s.setPhase token replay .recording

/-- The transaction of a replay that has prepared its sync run. -/
def State.preparedReplay (token : String) : Option (Replay × String) := do
  let replay ← s.replays.get? token
  match replay.phase with
  | .prepared transactionId => return (replay, transactionId)
  | _ => none

def State.finalise (token : String) (target : Target) (versionId : String)
    (stagedFiles : List String) (isAcknowledged : Bool) : Option State := do
  let (replay, transactionId) ← s.preparedReplay token
  match finalizeReplay s token replay.runId
      ⟨{ target with tenantId }, transactionId, versionId, stagedFiles, true⟩ with
  | .ok t =>
    return t.setPhase token replay
      (if isAcknowledged then .ended else .failing transactionId .databaseError)
  | .error error => return s.setPhase token replay (.failing transactionId error.code)

/-- `_abort_finalization_with_failures`: the transaction is aborted, and the caller told why. -/
def State.block (token : String) : Option State := do
  let (replay, transactionId) ← s.preparedReplay token
  let isOpen := (s.store.transactionById transactionId).any fun tx => tx.status = .opened
  match isOpen, Dataset.abortTransaction tenantId transactionId s.store with
  | true, .ok (true, store) =>
    return { s with store }.setPhase token replay (.failing transactionId .validationFailed)
  | _, _ => return s.setPhase token replay (.failing transactionId .conflictDetected)

/-- `_abort_replay_transaction`. -/
def State.abort (token : String) : Option State := do
  let replay ← s.replays.get? token
  match replay.phase with
  | .failing transactionId code =>
    match abortOpenTransactionAndFailRun tenantId s.store s.syncRuns transactionId replay.runId with
    | some (store, syncRuns) =>
      return { s with store, syncRuns }.setPhase token replay
        (if isRaisedAgain code then .ended else .recording)
    | none => return s.setPhase token replay .ended
  | _ => none

def State.recordFailure (token : String) : Option State := do
  let replay ← s.replayIn token (· = .recording)
  let record := (replayFailed s.record replay.runId token).getD s.record
  return (s.setRecord record).setPhase token replay .ended

end Steps

/-- The steps that leave an operation of the store undone are possible and change nothing. -/
def State.ofStore {α : Type} (s : State) (result : Checked (α × Store)) : State :=
  match result with
  | .ok (_, store) => { s with store }
  | .error _ => s

def next (tenantId : String) (s : State) : Event → Option State
  | .read call => some { s with reads := Function.update s.reads call (some s.record) }
  | .retry call idempotencyKey replayRunId requestedAt =>
    s.retry call idempotencyKey replayRunId requestedAt
  | .discard call discardedAt => s.discard call discardedAt
  | .claim call token startedAt expiresAt => s.claim call token startedAt expiresAt
  | .prepare token target transactionId => s.prepare tenantId token target transactionId
  | .prepareFails token => do
    let replay ← s.replayIn token (· = .claimed)
    return s.setPhase token replay .recording
  | .stageFails token code => do
    let (replay, transactionId) ← s.preparedReplay token
    return s.setPhase token replay (.failing transactionId code)
  | .finalise token target versionId stagedFiles isAcknowledged =>
    s.finalise tenantId token target versionId stagedFiles isAcknowledged
  | .block token => s.block tenantId token
  | .abort token => s.abort tenantId token
  | .recordFailure token => s.recordFailure token
  | .crash token => do
    let replay ← s.replays.get? token
    return s.setPhase token replay .ended
  | .claimStale transactionId =>
    some (s.ofStore (Dataset.claimStaleOpenTransaction tenantId transactionId s.store))
  | .abortStale transactionId =>
    match Dataset.abortTransaction tenantId transactionId s.store with
    | .ok (true, store) =>
      some { s with store, syncRuns := failAssociatedSyncRun s.syncRuns transactionId }
    | _ => some s
  | .openOther target txType transactionId =>
    some (s.ofStore (Dataset.openDatasetTransaction target txType transactionId s.store))
  | .finaliseOther request =>
    if isReplayTransaction s request.transactionId then none
    else some (s.ofStore (Dataset.finalizeRequest request s.store))

end FoundryLite.RecordDlq
