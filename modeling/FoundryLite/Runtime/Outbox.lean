import FoundryLite.Errors
import FoundryLite.Library.Runs
import FoundryLite.Runtime.StatusCas

/-!
# The outbox

An event is inserted into the outbox in the transaction of the change it reports, and publishers
carry it to the stream afterwards. A publisher claims a pending event, calls `publish_event`, and
records what became of the call: published, pending again, or, after `maxOutboxPublishAttempts`
claims, failed with a dead letter from which an operator may retry it.

Each of these is a transaction of its own, so publishers, the reclaiming of stale claims and
operators come in between in any order, and a publisher that crashes takes no further step. What a
publisher records is fenced on the time of its claim.

The rows are those of one tenant; a statement that changes no row is not an event, except where the
caller goes on from it.
-/

namespace FoundryLite.Runtime

/-! ### Rows -/

inductive OutboxStatus where
  | pending | publishing | published | failed
  deriving DecidableEq

/-- A row of `outbox_events`. -/
structure OutboxEvent where
  eventType : String
  payload : Dict String Json
  status : OutboxStatus
  attempts : ℕ
  idempotencyKey : Option String
  claimedAt : Option String
  publishedAt : Option String
  deriving DecidableEq

/-- A row of `dead_letter_events`. -/
structure DeadLetterEvent where
  sourceEventId : Option String
  eventType : String
  payload : Dict String Json
  error : Dict String Json
  failedAt : String
  retryAfter : Option String
  deriving DecidableEq

structure OutboxTables where
  events : Dict String OutboxEvent
  deadLetters : Dict String DeadLetterEvent
  deriving DecidableEq

/-- `_new_id`, with the digits of a fresh uuid. -/
def newIdOf (kind hex : String) : String := kind ++ "_" ++ hex

def deadLetterId (eventId hex : String) : String :=
  if eventId = "" then newIdOf "dlq" hex else "dlq_" ++ eventId

def maxOutboxPublishAttempts : ℕ := 5

/-! ### Transitions -/

def outboxPublishing : StatusTransition OutboxStatus := ⟨[.pending], .publishing⟩

def outboxPublished : StatusTransition OutboxStatus := ⟨[.publishing], .published⟩

def outboxPublishRetryPending : StatusTransition OutboxStatus := ⟨[.publishing], .pending⟩

def outboxPublishFailed : StatusTransition OutboxStatus := ⟨[.publishing], .failed⟩

def outboxRetryPending : StatusTransition OutboxStatus := ⟨[.failed], .pending⟩

def outboxPublishingReclaim : StatusTransition OutboxStatus := ⟨[.publishing], .pending⟩

def markOutboxEventPublishing (claimedAt : String) (row : OutboxEvent) : Option OutboxEvent :=
  casStatusUpdate outboxPublishing row.status true fun status =>
    { row with status, attempts := row.attempts + 1, claimedAt := some claimedAt }

def reclaimStalePublishingEvent (claimedBefore : String) (row : OutboxEvent) : Option OutboxEvent :=
  casStatusUpdate outboxPublishingReclaim row.status
    (row.claimedAt.any fun claimedAt => decide (claimedAt < claimedBefore))
    fun status => { row with status, claimedAt := none, publishedAt := none }

/-- The end of a claim, which is fenced on the time of the claim. -/
def endOutboxClaim (transition : StatusTransition OutboxStatus) (claimedAt : String)
    (publishedAt : Option String) (row : OutboxEvent) : Option OutboxEvent :=
  casStatusUpdate transition row.status (row.claimedAt = some claimedAt)
    fun status => { row with status, publishedAt, claimedAt := none }

def markOutboxEventPublished (publishedAt claimedAt : String) : OutboxEvent → Option OutboxEvent :=
  endOutboxClaim outboxPublished claimedAt (some publishedAt)

def markOutboxEventFailed (claimedAt : String) : OutboxEvent → Option OutboxEvent :=
  endOutboxClaim outboxPublishFailed claimedAt none

def markOutboxEventRetryPending (claimedAt : String) : OutboxEvent → Option OutboxEvent :=
  endOutboxClaim outboxPublishRetryPending claimedAt none

def updateOutboxEventForRetry (row : OutboxEvent) : Option OutboxEvent :=
  casStatusUpdate outboxRetryPending row.status true
    fun status => { row with status, attempts := 0, publishedAt := none, claimedAt := none }

/-! ### Statements -/

namespace OutboxTables

def setEvent (tables : OutboxTables) (eventId : String) (row : OutboxEvent) : OutboxTables :=
  { tables with events := tables.events.insert eventId row }

/-- Update one event, and read it again. -/
def updateEvent (tables : OutboxTables) (eventId : String)
    (update : OutboxEvent → Option OutboxEvent) : Option (OutboxEvent × OutboxTables) := do
  let row ← tables.events.get? eventId
  let updated ← update row
  return (updated, tables.setEvent eventId updated)

/-- The event that an insertion adds. Nothing is added where the id is taken, or another event of
the type has the idempotency key. -/
def insertOutboxEvent (tables : OutboxTables) (eventId eventType : String)
    (payload : Dict String Json) (idempotencyKey : Option String) : Option OutboxTables :=
  let isTaken := (tables.events.get? eventId).isSome ||
    tables.events.entries.any fun e =>
      e.2.eventType = eventType && idempotencyKey.isSome && e.2.idempotencyKey = idempotencyKey
  if isTaken then none
  else some (tables.setEvent eventId
    ⟨eventType, payload, .pending, 0, idempotencyKey, none, none⟩)

def insertDeadLetterEvent (tables : OutboxTables) (eventId : String) (record : DeadLetterEvent) :
    Checked OutboxTables :=
  if (tables.deadLetters.get? eventId).isSome then throw (databaseError "IntegrityError")
  else return { tables with deadLetters := tables.deadLetters.insert eventId record }

def deleteDeadLetterEvent (tables : OutboxTables) (eventId : String) : Option OutboxTables :=
  if (tables.deadLetters.get? eventId).isSome then
    some { tables with deadLetters := tables.deadLetters.erase eventId }
  else none

end OutboxTables

/-! ### The publisher -/

/-- What a publisher counts an event as. -/
inductive PublishOutcome where
  | published
  | retrying
  | failed (deadLetterId : String)
  | skipped
  deriving DecidableEq

variable (tables : OutboxTables) (eventId fence now hex : String) (error : Dict String Json)

def markPublished : PublishOutcome × OutboxTables :=
  match tables.updateEvent eventId (markOutboxEventPublished now fence) with
  | some (_, tables) => (.published, tables)
  | none => (.skipped, tables)

def markRetryPending : PublishOutcome × OutboxTables :=
  match tables.updateEvent eventId (markOutboxEventRetryPending fence) with
  | some (_, tables) => (.retrying, tables)
  | none => (.skipped, tables)

def insertDeadLetter (failed : OutboxEvent) : Checked (String × OutboxTables) := do
  let deadLetterId := deadLetterId eventId hex
  let tables ← tables.insertDeadLetterEvent deadLetterId
    ⟨some eventId, failed.eventType, failed.payload, error, now, none⟩
  return (deadLetterId, tables)

def markFailed : Checked (PublishOutcome × OutboxTables) :=
  match tables.updateEvent eventId (markOutboxEventFailed fence) with
  | some (failed, tables) => do
    let (deadLetterId, tables) ← insertDeadLetter tables eventId now hex error failed
    return (.failed deadLetterId, tables)
  | none => return (.skipped, tables)

def rowAttempts (row : OutboxEvent) : Checked ℕ :=
  if row.attempts < 1 then throw (libraryError "outbox_publish_attempts_invalid")
  else return row.attempts

/-- `_record_failure`, for the row as it was claimed. -/
def recordFailure (row : OutboxEvent) : Checked (PublishOutcome × OutboxTables) := do
  let attempts ← rowAttempts row
  if attempts < maxOutboxPublishAttempts then return markRetryPending tables eventId fence
  else markFailed tables eventId fence now hex error

/-! ### The operator -/

structure RetryPlan where
  deadLetterEventId : String
  outboxEventId : String
  eventType : String
  payload : Dict String Json

def requiredString (value : Option String) (key eventId : String) : Checked String :=
  match value with
  | some value =>
    if value = "" then validationFailed "dead-letter event is not retryable"
      [("event_id", .str eventId), ("field", .str key)]
    else return value
  | none => validationFailed "dead-letter event is not retryable"
      [("event_id", .str eventId), ("field", .str key)]

def deadLetterRetryPlan (deadLetterEventId : String) : Checked RetryPlan := do
  match tables.deadLetters.get? deadLetterEventId with
  | none => throw (notFound "dead-letter event not found" [("event_id", .str deadLetterEventId)])
  | some deadLetter =>
    let outboxEventId ← requiredString deadLetter.sourceEventId "source_event_id" deadLetterEventId
    if (tables.events.get? outboxEventId).isNone then
      throw (notFound "source outbox event not found" [("event_id", .str outboxEventId)])
    let eventType ← requiredString (some deadLetter.eventType) "event_type" deadLetterEventId
    return ⟨deadLetterEventId, outboxEventId, eventType, deadLetter.payload⟩

def retryDeadLetterEventRows (plan : RetryPlan) : Checked OutboxTables :=
  match tables.updateEvent plan.outboxEventId updateOutboxEventForRetry with
  | none => throw (notFound "source outbox event not found" [("event_id", .str plan.outboxEventId)])
  | some (_, tables) =>
    match tables.deleteDeadLetterEvent plan.deadLetterEventId with
    | none =>
      throw (notFound "dead-letter event not found" [("event_id", .str plan.deadLetterEventId)])
    | some tables => return tables

/-! ### Publishers and operators side by side -/

namespace Outbox

inductive Phase where
  /-- The claim is committed, and `publish_event` is called. -/
  | publishing
  | returned
  | raised (error : Dict String Json)
  /-- The call of the publisher ended with a result or an exception. -/
  | done (outcome : Checked PublishOutcome)

/-- A call of `_publish_one` that has claimed its event. -/
structure Publisher where
  eventId : String
  row : OutboxEvent
  fence : String
  phase : Phase

/-- The tables, the calls of publishers, and the retries between their reading of the dead letter
and their update. -/
structure State where
  tables : OutboxTables
  publishers : ℕ → Option Publisher
  retries : ℕ → Option RetryPlan

def State.initial : State := ⟨⟨∅, ∅⟩, fun _ => none, fun _ => none⟩

inductive Event where
  | insert (hex eventType : String) (payload : Dict String Json) (idempotencyKey : Option String)
  | claim (call : ℕ) (eventId claimedAt : String)
  | publishReturns (call : ℕ)
  | publishRaises (call : ℕ) (error : Dict String Json)
  /-- The publisher records what became of its call of `publish_event`. -/
  | record (call : ℕ) (now hex : String)
  /-- One of the rows that a statement reclaims. -/
  | reclaim (eventId claimedBefore : String)
  | planRetry (call : ℕ) (deadLetterEventId : String)
  | retry (call : ℕ)

def State.setPhase (s : State) (call : ℕ) (publisher : Publisher) (phase : Phase) : State :=
  { s with publishers := Function.update s.publishers call (some { publisher with phase }) }

/-- A transaction of a publisher commits its result, or is rolled back by its exception. -/
def State.finish (s : State) (call : ℕ) (publisher : Publisher) :
    Checked (PublishOutcome × OutboxTables) → State
  | .ok (outcome, tables) => { s.setPhase call publisher (.done (.ok outcome)) with tables }
  | .error e => s.setPhase call publisher (.done (.error e))

def State.claim (s : State) (call : ℕ) (eventId claimedAt : String) : Option State := do
  let (row, tables) ← s.tables.updateEvent eventId (markOutboxEventPublishing claimedAt)
  let publishers := Function.update s.publishers call (some ⟨eventId, row, claimedAt, .publishing⟩)
  return { s with tables, publishers }

def State.record (s : State) (call : ℕ) (now hex : String) : Option State := do
  let p ← s.publishers call
  match p.phase with
  | .returned => some (s.finish call p (.ok (markPublished s.tables p.eventId p.fence now)))
  | .raised error =>
    some (s.finish call p (recordFailure s.tables p.eventId p.fence now hex error p.row))
  | _ => none

/-- `publish_event` returned or raised. -/
def State.publishEnds (s : State) (call : ℕ) (phase : Phase) : Option State := do
  let p ← s.publishers call
  match p.phase with
  | .publishing => some (s.setPhase call p phase)
  | _ => none

def State.reclaim (s : State) (eventId claimedBefore : String) : Option State := do
  let (_, tables) ← s.tables.updateEvent eventId (reclaimStalePublishingEvent claimedBefore)
  return { s with tables }

def State.planRetry (s : State) (call : ℕ) (deadLetterEventId : String) : Option State :=
  match deadLetterRetryPlan s.tables deadLetterEventId with
  | .ok plan => some { s with retries := Function.update s.retries call (some plan) }
  | .error _ => none

def State.retry (s : State) (call : ℕ) : Option State := do
  let plan ← s.retries call
  let s := { s with retries := Function.update s.retries call none }
  match retryDeadLetterEventRows s.tables plan with
  | .ok tables => some { s with tables }
  | .error _ => some s

/-- The calls are numbered, and a number is used once. -/
def next (s : State) : Event → Option State
  | .insert hex eventType payload idempotencyKey => do
    let tables ← s.tables.insertOutboxEvent (newIdOf "outbox" hex) eventType payload idempotencyKey
    return { s with tables }
  | .claim call eventId claimedAt =>
    if (s.publishers call).isNone then s.claim call eventId claimedAt else none
  | .publishReturns call => s.publishEnds call .returned
  | .publishRaises call error => s.publishEnds call (.raised error)
  | .record call now hex => s.record call now hex
  | .reclaim eventId claimedBefore => s.reclaim eventId claimedBefore
  | .planRetry call deadLetterEventId =>
    if (s.retries call).isNone then s.planRetry call deadLetterEventId else none
  | .retry call => s.retry call

end Outbox

end FoundryLite.Runtime
