import FoundryLite.Library.Runs
import FoundryLite.ObjectStore.Store
import FoundryLite.Runtime.StatusCas

/-!
# Actions with an external write

An action with an external write is applied in three phases. The first transaction leaves its run
`external_pending`; then the external system is written to, while no transaction is open; and a
second transaction commits the local mutation, or records what is known of the external write. A
third one records that the external write has to be compensated when the local commit failed.

A run that is left pending is resolved by a sweep. It looks the external write up, and commits the
mutation, fails the run, or leaves the outcome unknown. What stays unknown or has to be compensated
is reconciled by an operator.

Every transaction decides by conditional updates of the run, behind a read that ends it where the
run is resolved already.
-/

namespace FoundryLite.Actions.ExternalSaga

open FoundryLite.Runtime

open ObjectStore (ActionRunStatus)

/-! ### Statuses -/

inductive WritebackStatus where
  | succeeded | failed | retryable | outcomeUnknown | compensationRequired | reconciled
  deriving DecidableEq

abbrev RunTransition := StatusTransition ActionRunStatus

def actionRunExternalPending : RunTransition := ⟨[.received], .externalPending⟩

def actionRunSucceeded : RunTransition := ⟨[.received, .externalPending], .succeeded⟩

def actionRunFailed : RunTransition := ⟨[.received, .externalPending], .failed⟩

def actionRunConflict : RunTransition := ⟨[.received], .conflict⟩

def actionRunRetryable : RunTransition := ⟨[.received], .retryable⟩

def actionRunOutcomeUnknown : RunTransition := ⟨[.received, .externalPending], .outcomeUnknown⟩

def actionRunCompensationRequired : RunTransition :=
  ⟨[.received, .externalPending], .compensationRequired⟩

def actionRunReconciled : RunTransition := ⟨[.outcomeUnknown, .compensationRequired], .reconciled⟩

def actionWritebackReconciled : StatusTransition WritebackStatus :=
  ⟨[.outcomeUnknown, .compensationRequired], .reconciled⟩

/-- `is_resolvable_writeback`. -/
def isResolvableWriteback (writeback : WritebackStatus) (status : ActionRunStatus) : Bool :=
  decide (writeback ∈ [WritebackStatus.outcomeUnknown, .compensationRequired]) &&
    decide (status ∈ [ActionRunStatus.outcomeUnknown, .compensationRequired])

/-! ### The state -/

/-- What the external system answers to a write. -/
inductive Receipt where
  | landed | ambiguous
  deriving DecidableEq

/-- What it answers to a lookup. -/
inductive RemoteOutcome where
  | landed | absent | ambiguous
  deriving DecidableEq

/-- How far a request is that made the run. -/
inductive RequestPhase where
  | prepared
  | writing
  | written (receipt : Receipt)
  /-- The run was read as pending in the transaction that resolves it. -/
  | resolving (receipt : Receipt)
  | localFailed
  | compensating
  deriving DecidableEq

/-- How far a sweep is with the run. -/
inductive SweepPhase where
  | listed
  | looked (outcome : RemoteOutcome)
  | recovering (outcome : RemoteOutcome)
  deriving DecidableEq

structure State (W : Type) where
  /-- The status of the run, where there is one. -/
  status : Option ActionRunStatus
  /-- The version of the target object, where it is there. -/
  target : Option ℕ
  /-- How often the local mutation was committed. -/
  mutations : ℕ
  writebacks : List WritebackStatus
  /-- Whether the external write was sent and can still land, and whether it has. -/
  isUnderWay : Bool
  hasLanded : Bool
  requests : W → Option RequestPhase
  sweeps : W → Option SweepPhase
  /-- The writebacks that are being reconciled. -/
  operators : W → Option ℕ

variable {W : Type} [DecidableEq W]

def State.initial (target : Option ℕ) : State W where
  status := none
  target
  mutations := 0
  writebacks := []
  isUnderWay := false
  hasLanded := false
  requests _ := none
  sweeps _ := none
  operators _ := none

def State.setRequest (s : State W) (w : W) (phase : Option RequestPhase) : State W :=
  { s with requests := Function.update s.requests w phase }

def State.setSweep (s : State W) (w : W) (phase : Option SweepPhase) : State W :=
  { s with sweeps := Function.update s.sweeps w phase }

def State.setOperator (s : State W) (w : W) (writeback : Option ℕ) : State W :=
  { s with operators := Function.update s.operators w writeback }

/-- A row in `action_writebacks`. -/
def State.record (s : State W) (status : WritebackStatus) : State W :=
  { s with writebacks := s.writebacks ++ [status] }

/-- `update_action_run_terminal`. -/
def State.move (s : State W) (transition : RunTransition) : Option (State W) :=
  (s.status.bind fun status => casStatusUpdate transition status true id).map fun status =>
    { s with status := some status }

/-- `ActionMutationUnitOfWork.commit`, behind the check of the version of the target. What else can
refuse it is `isAllowed`. -/
def State.commit (s : State W) (expectedVersion : ℕ) (isAllowed : Bool)
    (transition : RunTransition) : Option (State W) :=
  if isAllowed ∧ s.target = some expectedVersion then
    (s.move transition).map fun s =>
      { s with target := some (expectedVersion + 1), mutations := s.mutations + 1 }
  else none

/-- Why the first transaction ends without a pending run. -/
inductive Refusal where
  | invalid | conflicting
  | simulatedFailure | simulatedRetryable | simulatedUnknown | simulatedCompensation
  deriving DecidableEq

def Refusal.transition : Refusal → RunTransition
  | .invalid => actionRunFailed
  | .conflicting => actionRunConflict
  | .simulatedFailure => actionRunFailed
  | .simulatedRetryable => actionRunRetryable
  | .simulatedUnknown => actionRunOutcomeUnknown
  | .simulatedCompensation => actionRunCompensationRequired

def Refusal.writebacks : Refusal → List WritebackStatus
  | .invalid => []
  | .conflicting => []
  | .simulatedFailure => [.failed]
  | .simulatedRetryable => [.retryable]
  | .simulatedUnknown => [.outcomeUnknown]
  | .simulatedCompensation => [.compensationRequired]

/-! ### Steps -/

inductive Event (W : Type) where
  /-- The first transaction of a request, and what it refuses. -/
  | prepare (w : W) (refusal : Option Refusal)
  | dispatch (w : W)
  /-- The external write takes effect, whoever waits for it. -/
  | land
  /-- The external write is lost, and never takes effect. -/
  | lose
  | answer (w : W) (receipt : Receipt)
  | resolve (w : W)
  | finish (w : W) (isAllowed : Bool)
  | compensate (w : W)
  | finishCompensation (w : W)
  /-- A request ends, by a crash or by an exception. -/
  | dropRequest (w : W)
  | list (w : W)
  | lookup (w : W) (outcome : RemoteOutcome)
  | recover (w : W)
  | finishRecovery (w : W) (isAllowed : Bool)
  | dropSweep (w : W)
  | reconcile (w : W) (writeback : ℕ)
  | finishReconcile (w : W) (isAllowed : Bool)
  | dropOperator (w : W)
  /-- Others write the target. -/
  | edit (target : Option ℕ)
  deriving DecidableEq

/-- What the second transaction of a request does with what the external system answered. -/
def finish (expectedVersion : ℕ) (s : State W) (w : W) (isAllowed : Bool) : Receipt → State W
  | .ambiguous =>
    match s.move actionRunOutcomeUnknown with
    | some moved => (moved.record .outcomeUnknown).setRequest w none
    | none => s.setRequest w none
  | .landed =>
    match s.commit expectedVersion isAllowed actionRunSucceeded with
    | some committed => (committed.record .succeeded).setRequest w none
    | none => s.setRequest w (some .localFailed)

/-- What a sweep does with what it found. -/
def finishRecovery (expectedVersion : ℕ) (s : State W) (w : W) (isAllowed : Bool) :
    RemoteOutcome → State W
  | .landed =>
    match s.commit expectedVersion isAllowed actionRunSucceeded with
    | some committed => (committed.record .succeeded).setSweep w none
    | none => s.setSweep w none
  | .absent =>
    match s.move actionRunFailed with
    | some moved => (moved.record .failed).setSweep w none
    | none => s.setSweep w none
  | .ambiguous =>
    match s.move actionRunOutcomeUnknown with
    | some moved => (moved.record .outcomeUnknown).setSweep w none
    | none => s.setSweep w none

/-- The writeback is marked reconciled and the mutation is committed, or neither. -/
def finishReconcile (expectedVersion : ℕ) (s : State W) (w : W) (isAllowed : Bool)
    (writeback : ℕ) : State W :=
  let marked := do
    let status ← s.writebacks[writeback]?
    let status ← casStatusUpdate actionWritebackReconciled status true id
    State.commit { s with writebacks := s.writebacks.set writeback status } expectedVersion
      isAllowed actionRunReconciled
  match marked with
  | some committed => committed.setOperator w none
  | none => s.setOperator w none

/-- What an event does, where it can happen. -/
def next (expectedVersion : ℕ) (s : State W) : Event W → Option (State W)
  | .prepare w refusal =>
    if s.requests w ≠ none then none
    -- A request that is there already is replayed.
    else if s.status ≠ none then some s
    else match refusal with
      | none =>
        (State.move { s with status := some .received } actionRunExternalPending).map fun s =>
          s.setRequest w (some .prepared)
      | some refusal =>
        (State.move { s with status := some .received } refusal.transition).map fun s =>
          { s with writebacks := s.writebacks ++ refusal.writebacks }
  | .dispatch w =>
    if s.requests w = some .prepared then
      some { s.setRequest w (some .writing) with isUnderWay := true }
    else none
  | .land =>
    if s.isUnderWay then some { s with isUnderWay := false, hasLanded := true } else none
  | .lose => if s.isUnderWay then some { s with isUnderWay := false } else none
  | .answer w receipt =>
    if s.requests w = some .writing ∧ (receipt = .landed → s.hasLanded = true) then
      some (s.setRequest w (some (.written receipt)))
    else none
  | .resolve w =>
    match s.requests w with
    | some (.written receipt) =>
      some (s.setRequest w
        (if s.status = some .externalPending then some (.resolving receipt) else none))
    | _ => none
  | .finish w isAllowed =>
    match s.requests w with
    | some (.resolving receipt) => some (finish expectedVersion s w isAllowed receipt)
    | _ => none
  | .compensate w =>
    if s.requests w = some .localFailed then
      some (s.setRequest w (if s.status = some .externalPending then some .compensating else none))
    else none
  | .finishCompensation w =>
    if s.requests w = some .compensating then
      match s.move actionRunCompensationRequired with
      | some moved =>
        some (((moved.record .succeeded).record .compensationRequired).setRequest w none)
      | none => some (s.setRequest w none)
    else none
  | .dropRequest w => some (s.setRequest w none)
  | .list w =>
    if s.sweeps w = none ∧ s.status = some .externalPending then some (s.setSweep w (some .listed))
    else none
  | .lookup w outcome =>
    if s.sweeps w = some .listed ∧ (outcome = .landed → s.hasLanded = true) ∧
        (outcome = .absent → s.hasLanded = false) then
      some (s.setSweep w (some (.looked outcome)))
    else none
  | .recover w =>
    match s.sweeps w with
    | some (.looked outcome) =>
      some (s.setSweep w
        (if s.status = some .externalPending then some (.recovering outcome) else none))
    | _ => none
  | .finishRecovery w isAllowed =>
    match s.sweeps w with
    | some (.recovering outcome) => some (finishRecovery expectedVersion s w isAllowed outcome)
    | _ => none
  | .dropSweep w => some (s.setSweep w none)
  | .reconcile w writeback =>
    if s.operators w = none ∧
        s.writebacks[writeback]?.any (fun status => s.status.any (isResolvableWriteback status)) then
      some (s.setOperator w (some writeback))
    else none
  | .finishReconcile w isAllowed =>
    (s.operators w).map fun writeback => finishReconcile expectedVersion s w isAllowed writeback
  | .dropOperator w => some (s.setOperator w none)
  | .edit target => some { s with target }

end FoundryLite.Actions.ExternalSaga
