import FoundryLite.Library.Runs
import FoundryLite.Runtime.StatusCas

/-!
# Release deliveries

A merge of sources and a deployment of an application are mutations of a provider. Each is written
ahead as a row of `governed_release_deliveries`, claimed by one conditional update, and dispatched
by the call that has claimed it. What came of it is written to the row. A request that finds a
dispatch under way, or one whose outcome is unknown, asks the provider, and settles the row by what
it finds: a merge by the pull request, a deployment by the deployments of its commit that were
created since the dispatch.

A request holds the row as it was when it was read. Time is counted in microseconds, by one clock,
and is read before what it is read for.

The provider is part of the environment, and it tells the truth. A dispatched call takes effect once
or not at all, before the settle window of the dispatch is over. One that is refused has no effect.
Lookups answer with what is there at that moment.
-/

namespace FoundryLite.Aip.Delivery

open FoundryLite.Runtime (casStatusUpdate)

/-! ### Rows -/

inductive Operation where
  | sourceMerge | applicationDeploy
  deriving DecidableEq

inductive DeliveryStatus where
  | prepared | dispatching | landed | absent | ambiguous | failed
  deriving DecidableEq

/-- A row. Its target is the pull request of a merge, or the service and the commit of a
deployment. -/
structure Record (K : Type) where
  operation : Operation
  target : K
  priorResourceId : Option ℕ
  status : DeliveryStatus
  executionAttempt : ℕ
  dispatchStartedAt : Option ℕ
  providerResourceId : Option ℕ
  deriving DecidableEq

/-- A merge or a deployment at the provider, and the delivery whose call has created it. -/
structure Resource (D K : Type) where
  id : ℕ
  operation : Operation
  target : K
  createdAt : ℕ
  owner : Option D
  deriving DecidableEq

/-- `infrastructure_receipt_state`, where an accepted deployment may be live. -/
inductive ReceiptState where
  | accepted | failed | outcomeUnknown
  deriving DecidableEq

variable {W D K : Type} [DecidableEq W] [DecidableEq D] [DecidableEq K]

def reconciliationSettle : ℕ := 60 * 1000000

/-- Merges and deployments are prepared without a prior resource, which only a rollback names. -/
def prepareRecord (operation : Operation) (target : K) : Record K where
  operation := operation
  target := target
  priorResourceId := none
  status := .prepared
  executionAttempt := 0
  dispatchStartedAt := none
  providerResourceId := none

def isSettledWindow (row : Record K) (now : ℕ) : Bool :=
  row.dispatchStartedAt.any fun startedAt => decide (startedAt + reconciliationSettle ≤ now)

/-- Whether a call of the delivery can still take effect, by the time that has passed. -/
def isOpenWindow (row : Record K) (now : ℕ) : Bool :=
  row.dispatchStartedAt.any fun startedAt => decide (now < startedAt + reconciliationSettle)

/-- `infrastructure_receipt_matches_delivery`. -/
def matchesDelivery (row : Record K) (resource : Resource D K) : Bool :=
  decide (resource.operation = .applicationDeploy ∧ resource.target = row.target ∧
    row.priorResourceId ≠ some resource.id)

/-- `strict_deploy_reconciliation_candidates`. -/
def candidates (row : Record K) (resources : List (Resource D K)) (observedAt : ℕ) :
    List (Resource D K) :=
  match row.dispatchStartedAt with
  | none => []
  | some startedAt => resources.filter fun resource =>
    matchesDelivery row resource &&
      decide (startedAt ≤ resource.createdAt ∧ resource.createdAt ≤ observedAt)

/-! ### State -/

/-- What a lookup has found: nothing, or one resource. -/
inductive Finding where
  | nothing
  | resource (id : ℕ)
  deriving DecidableEq

/-- What the provider has answered to a call. -/
inductive Answer where
  | accepted (id : ℕ) (state : ReceiptState)
  /-- An error of a kind which is known not to have committed. -/
  | rejected
  /-- The receipt of a merge that was not made. -/
  | absent
  | outcomeUnknown
  deriving DecidableEq

/-- What a request is at, with the row that it has read. -/
inductive Job (D K : Type) where
  | resuming (d : D) (row : Record K)
  | claimed (d : D) (row : Record K)
  | calling (d : D) (row : Record K)
  | answered (d : D) (row : Record K) (answer : Answer)
  | looking (d : D) (row : Record K) (observedAt : ℕ)
  | found (d : D) (row : Record K) (finding : Finding) (observedAt : ℕ)
  deriving DecidableEq

structure State (W D K : Type) where
  clock : ℕ
  rows : D → Option (Record K)
  jobs : W → Option (Job D K)
  resources : List (Resource D K)
  /-- The calls that were dispatched, newest first. -/
  dispatches : List D
  /-- The calls that were refused. -/
  refused : List D
  /-- The outcomes that were written, newest first. -/
  outcomes : List (D × DeliveryStatus)

def State.initial : State W D K where
  clock := 0
  rows _ := none
  jobs _ := none
  resources := []
  dispatches := []
  refused := []
  outcomes := []

def State.setJob (s : State W D K) (w : W) (job : Option (Job D K)) : State W D K :=
  { s with jobs := Function.update s.jobs w job }

def State.setRow (s : State W D K) (d : D) (row : Record K) : State W D K :=
  { s with rows := Function.update s.rows d (some row) }

/-- Whether the pull request is merged, which can happen to it once. -/
def State.isMerged (s : State W D K) (target : K) : Bool :=
  s.resources.any fun resource =>
    decide (resource.operation = .sourceMerge ∧ resource.target = target)

/-- Whether the call of a delivery, if it was dispatched, can still take effect. -/
def State.canTakeEffect (s : State W D K) (d : D) : Bool :=
  match s.rows d with
  | none => false
  | some row =>
    isOpenWindow row s.clock && decide (d ∉ s.refused) &&
      (s.resources.all fun resource => decide (resource.owner ≠ some d)) &&
        !(decide (row.operation = .sourceMerge) && s.isMerged row.target)

def State.create (s : State W D K) (operation : Operation) (target : K) (owner : Option D) :
    State W D K :=
  { s with resources := ⟨s.resources.length, operation, target, s.clock, owner⟩ :: s.resources }

/-- A conditional update of the row that was read, which writes an outcome. -/
def State.writeOutcome (s : State W D K) (d : D) (row : Record K) (status : DeliveryStatus)
    (providerResourceId : Option ℕ) : Option (State W D K) := do
  let current ← s.rows d
  let updated ← casStatusUpdate ⟨[row.status], status⟩ current.status
    (decide (current.executionAttempt = row.executionAttempt)) fun status =>
      { current with status := status, providerResourceId := providerResourceId }
  pure { s.setRow d updated with outcomes := (d, status) :: s.outcomes }

/-! ### Outcomes -/

/-- What a delivery is written as, of a resource in this state. -/
def receiptStatus (row : Record K) (state : ReceiptState) : DeliveryStatus :=
  match row.operation, state with
  | .sourceMerge, _ => .landed
  | .applicationDeploy, .accepted => .landed
  | .applicationDeploy, .failed => .failed
  | .applicationDeploy, .outcomeUnknown => .ambiguous

/-- What `_finish_receipt`, `_finish_result` and `_finish_adapter_error` write. -/
def completion (row : Record K) : Answer → DeliveryStatus × Option ℕ
  | .accepted id state =>
    -- A deployment that was there before is no receipt of this one.
    if row.operation = .applicationDeploy ∧ row.priorResourceId = some id then (.ambiguous, none)
    else (receiptStatus row state, some id)
  | .rejected => (.failed, none)
  | .absent => (.absent, none)
  | .outcomeUnknown => (.ambiguous, none)

/-- What `_reconcile` settles the row as, if it does. -/
def settlement (row : Record K) (finding : Finding) (state : ReceiptState) (now : ℕ) :
    Option (DeliveryStatus × Option ℕ) :=
  match finding with
  | .resource id =>
    if receiptStatus row state = .ambiguous then none else some (receiptStatus row state, some id)
  | .nothing =>
    -- A merge that is not there is absent at once.
    if row.operation = .sourceMerge ∨ isSettledWindow row now = true then some (.absent, none)
    else none

/-- What a lookup answers, unless it is not conclusive. -/
def lookup (row : Record K) (resources : List (Resource D K)) (observedAt : ℕ) : Option Finding :=
  match row.operation with
  | .sourceMerge =>
    match resources.find? fun resource =>
      decide (resource.operation = .sourceMerge ∧ resource.target = row.target) with
    | some resource => some (.resource resource.id)
    | none => some .nothing
  | .applicationDeploy =>
    match candidates row resources observedAt with
    | [] => some .nothing
    | [resource] => some (.resource resource.id)
    | _ => none

/-! ### Steps -/

inductive Event (W D K : Type) where
  | tick (elapsed : ℕ)
  | prepare (d : D) (operation : Operation) (target : K)
  /-- A request reads the row that it resumes. -/
  | resume (w : W) (d : D)
  | claim (w : W) (now : ℕ)
  | dispatch (w : W)
  /-- The provider carries out a call, or is asked by somebody else. -/
  | takeEffect (d : D)
  | foreign (operation : Operation) (target : K)
  | answer (w : W) (answer : Answer)
  | complete (w : W)
  | observe (w : W)
  | lookup (w : W)
  | settle (w : W) (state : ReceiptState)
  /-- An exception or a crash. -/
  | drop (w : W)
  deriving DecidableEq

/-- Whether the provider can answer a call so. -/
def State.isTrueAnswer (s : State W D K) (d : D) : Answer → Bool
  | .accepted id _ => s.resources.any fun resource =>
    decide (resource.id = id ∧ resource.owner = some d)
  | .rejected | .absent => s.resources.all fun resource => decide (resource.owner ≠ some d)
  | .outcomeUnknown => true

/-- The calls that are refused after an answer. -/
def State.refuse (s : State W D K) (d : D) : Answer → State W D K
  | .rejected | .absent => { s with refused := d :: s.refused }
  | .accepted _ _ | .outcomeUnknown => s

/-- What an event does, where it can happen. -/
def next (s : State W D K) : Event W D K → Option (State W D K)
  | .tick elapsed => some { s with clock := s.clock + elapsed }
  | .prepare d operation target =>
    if s.rows d ≠ none then none else some (s.setRow d (prepareRecord operation target))
  | .resume w d =>
    if s.jobs w ≠ none then none
    else (s.rows d).map fun row => s.setJob w (some (.resuming d row))
  | .claim w now =>
    match s.jobs w with
    | some (.resuming d row) =>
      if row.status ≠ .prepared ∨ s.clock < now then none
      else do
        let current ← s.rows d
        let claimed ← casStatusUpdate ⟨[.prepared], .dispatching⟩ current.status
          (decide (current.executionAttempt = row.executionAttempt)) fun status =>
            { current with
              status := status
              executionAttempt := row.executionAttempt + 1
              dispatchStartedAt := some now }
        pure ((s.setRow d claimed).setJob w (some (.claimed d claimed)))
    | _ => none
  | .dispatch w =>
    match s.jobs w with
    | some (.claimed d row) =>
      some { s.setJob w (some (.calling d row)) with dispatches := d :: s.dispatches }
    | _ => none
  | .takeEffect d =>
    if d ∈ s.dispatches ∧ s.canTakeEffect d = true then
      (s.rows d).map fun row => s.create row.operation row.target (some d)
    else none
  | .foreign operation target =>
    if operation = .sourceMerge ∧ s.isMerged target = true then none
    else some (s.create operation target none)
  | .answer w answer =>
    match s.jobs w with
    | some (.calling d row) =>
      if s.isTrueAnswer d answer then
        some ((s.refuse d answer).setJob w (some (.answered d row answer)))
      else none
    | _ => none
  | .complete w =>
    match s.jobs w with
    | some (.answered d row answer) =>
      -- A fence that is lost is an error, which leaves the row as it is.
      match s.writeOutcome d row (completion row answer).1 (completion row answer).2 with
      | some completed => some (completed.setJob w none)
      | none => some (s.setJob w none)
    | _ => none
  | .observe w =>
    match s.jobs w with
    | some (.resuming d row) =>
      if row.status = .dispatching ∨ row.status = .ambiguous then
        some (s.setJob w (some (.looking d row s.clock)))
      else none
    | _ => none
  | .lookup w =>
    match s.jobs w with
    | some (.looking d row observedAt) =>
      some (s.setJob w ((lookup row s.resources observedAt).map fun finding =>
        .found d row finding observedAt))
    | _ => none
  | .settle w state =>
    match s.jobs w with
    | some (.found d row finding _) =>
      match (settlement row finding state s.clock).bind fun settled =>
        s.writeOutcome d row settled.1 settled.2 with
      | some settled => some (settled.setJob w none)
      | none => some (s.setJob w none)
    | _ => none
  | .drop w => some (s.setJob w none)

end FoundryLite.Aip.Delivery
