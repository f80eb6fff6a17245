import FoundryLite.Pipeline.NodeAttempts

/-!
# Executions of a pipeline run

A run of a pipeline is executed by a worker that claims it. The claim is a lease on the row of the
run: a token drawn for the claim, and the moment it expires. The worker goes through the compiled
items, one after the other; every transaction in which it writes renews the lease first, by the
token. When it stops being renewed, another worker can take the run over, or the run is recovered as
a failure, or as a part of a success when some of its outputs were committed.

An exception that is not the loss of the lease ends an execution too. It is recorded by
`fail_pipeline_run`, which renews nothing and asks for no token.

The moments that the statements compare are texts, without a fraction where the microseconds are
zero.
-/

namespace FoundryLite.Pipeline

open FoundryLite.Runtime

namespace RunExecution

/-! ### Moments -/

/-- `_EXECUTION_LEASE_DURATION`, in microseconds. -/
def executionLeaseDuration : ℕ := 120000000

/-- The order of the texts of two moments. Of the moments of one second, the one that is written
without a fraction is the last. -/
def timestampLe (x y : ℕ) : Bool :=
  if x / 1000000 = y / 1000000 then
    decide (y % 1000000 = 0) || (decide (x % 1000000 ≠ 0) && decide (x ≤ y))
  else decide (x < y)

/-! ### The row of the run -/

/-- A row of `pipeline_runs`. Tokens are numbered as they are drawn. -/
structure Run where
  status : PipelineRunStatus
  executionLeaseToken : Option ℕ
  executionLeaseExpiresAt : Option ℕ
  deriving DecidableEq

def pipelineRunSucceeded : StatusTransition PipelineRunStatus := ⟨[.running, .executing], .succeeded⟩

def pipelineRunPartial : StatusTransition PipelineRunStatus :=
  ⟨[.running, .executing, .cancelling], .partiallySucceeded⟩

def pipelineRunFailed : StatusTransition PipelineRunStatus :=
  ⟨[.queued, .running, .executing], .failed⟩

def pipelineRunCancelled : StatusTransition PipelineRunStatus :=
  ⟨[.queued, .running, .executing, .cancelling], .cancelled⟩

def pipelineRunReconciled (status : PipelineRunStatus) : StatusTransition PipelineRunStatus :=
  ⟨[.partiallySucceeded], status⟩

/-- `claim_run_execution`. -/
def claimRunExecution (run : Run) (token expiresAt heartbeatAt : ℕ) : Option Run :=
  casStatusUpdate pipelineRunRunning run.status
    (run.executionLeaseToken.isNone ||
      run.executionLeaseExpiresAt.any fun expiry => timestampLe expiry heartbeatAt)
    fun status => ⟨status, some token, some expiresAt⟩

/-- `renew_run_execution_lease`. -/
def renewRunExecutionLease (run : Run) (token expiresAt : ℕ) : Option Run :=
  if run.status ∈ [PipelineRunStatus.running, .executing] ∧ run.executionLeaseToken = some token then
    some { run with executionLeaseExpiresAt := some expiresAt }
  else none

/-- `expire_run_execution`. -/
def expireRunExecution (run : Run) (token expiredAt : ℕ)
    (transition : StatusTransition PipelineRunStatus) : Option Run :=
  casStatusUpdate transition run.status
    (decide (run.executionLeaseToken = some token) &&
      run.executionLeaseExpiresAt.any fun expiry => timestampLe expiry expiredAt)
    fun status => ⟨status, none, none⟩

/-- `update_run_terminal`. Whose claim the run names is not among its conditions. -/
def updateRunTerminal (run : Run) (transition : StatusTransition PipelineRunStatus) : Option Run :=
  casStatusUpdate transition run.status true fun status => ⟨status, none, none⟩

/-! ### The rows of the nodes -/

inductive ExecutionKind where
  | datasetTransform | governedOutputCandidate
  deriving DecidableEq

/-- What a node is compiled to. -/
structure CompiledItem where
  executionKind : ExecutionKind
  isOutput : Bool
  deriving DecidableEq

/-- The row of a node run, with the status of its attempt. -/
structure NodeRow where
  status : NodeRunStatus
  attempt : Option AttemptStatus
  deriving DecidableEq

def nodeRunRunning : StatusTransition NodeRunStatus := ⟨[.pending, .ready, .retryWait], .running⟩

def nodeRunSkipped : StatusTransition NodeRunStatus := ⟨[.pending], .skipped⟩

/-- `claim_node_run`, and the attempt that is inserted behind it. -/
def claimNodeRun (node : NodeRow) : Option NodeRow :=
  casStatusUpdate nodeRunRunning node.status true fun status => ⟨status, some .running⟩

/-- An attempt and its node get their outcome, or neither does. -/
def completeNode (node : NodeRow) (attempt : StatusTransition AttemptStatus)
    (transition : StatusTransition NodeRunStatus) : Option NodeRow := do
  let current ← node.attempt
  let completed ← casStatusUpdate attempt current true some
  casStatusUpdate transition node.status true fun status => ⟨status, completed⟩

def succeedNode (node : NodeRow) : Option NodeRow :=
  completeNode node nodeAttemptSucceeded nodeRunSucceeded

def failNode (node : NodeRow) : Option NodeRow :=
  completeNode node nodeAttemptFailed nodeRunFailed

def skipNode (node : NodeRow) : Option NodeRow :=
  casStatusUpdate nodeRunSkipped node.status true fun status => ⟨status, node.attempt⟩

/-! ### The state -/

/-- What a worker that claimed the run knows. -/
structure Execution where
  token : ℕ
  /-- When its claim expires, as it wrote it last. -/
  expiresAt : ℕ
  /-- The item it is at, and whether it started an attempt at it. -/
  position : ℕ
  isStarted : Bool
  /-- Whether the item ended in an error. -/
  isFailing : Bool
  /-- The outputs it saw committed. -/
  outputs : List ℕ
  /-- Whether a renewal failed. -/
  isLost : Bool
  deriving DecidableEq

/-- What someone who recovers an expired run read: its token, and whether outputs were committed. -/
structure Recovery where
  token : ℕ
  hasOutputs : Bool
  deriving DecidableEq

inductive Writer (W : Type) where
  | worker (w : W)
  | recovery (w : W)
  | cancellation
  | reconciliation
  deriving DecidableEq

/-- A terminal status that was written, by whom, and whether the writer could: the run named the
claim of the worker, or the lease that was recovered had expired. -/
structure TerminalWrite (W : Type) where
  status : PipelineRunStatus
  writer : Writer W
  isRightful : Bool
  deriving DecidableEq

structure State (W : Type) where
  now : ℕ
  run : Run
  /-- The row of the node of each item. -/
  nodes : ℕ → NodeRow
  /-- The items whose results are committed. -/
  committed : List ℕ
  executions : W → Option Execution
  recoveries : W → Option Recovery
  /-- The number of claims so far. -/
  claims : ℕ
  /-- The terminal statuses that were written, the last one first. -/
  writes : List (TerminalWrite W)

variable {W : Type} [DecidableEq W]

def State.initial : State W where
  now := 0
  run := ⟨.queued, none, none⟩
  nodes _ := ⟨.pending, none⟩
  committed := []
  executions _ := none
  recoveries _ := none
  claims := 0
  writes := []

def State.setExecution (s : State W) (w : W) (execution : Option Execution) : State W :=
  { s with executions := Function.update s.executions w execution }

/-- A terminal status is written. -/
def State.write (s : State W) (run : Run) (writer : Writer W) (isRightful : Bool) : State W :=
  { s with run, writes := ⟨run.status, writer, isRightful⟩ :: s.writes }

def isOutput (items : List CompiledItem) (position : ℕ) : Bool :=
  items[position]?.any CompiledItem.isOutput

/-- Whether an output of the run is committed. -/
def State.hasCommittedOutput (items : List CompiledItem) (s : State W) : Bool :=
  s.committed.any (isOutput items)

/-- Whether the run names the claim of an execution. -/
def State.isHolder (s : State W) (execution : Option Execution) : Bool :=
  execution.any fun execution => decide (s.run.executionLeaseToken = some execution.token)

/-- Whether the claim that the run names has expired. -/
def State.hasExpired (s : State W) : Bool :=
  s.run.executionLeaseExpiresAt.any fun expiry => decide (expiry ≤ s.now)

/-! ### Steps -/

/-- What happens to the run. A worker reads its clock before the statement that it reads it for. -/
inductive Event (W : Type) where
  | tick (duration : ℕ)
  | claim (w : W) (clock : ℕ)
  | renew (w : W) (clock : ℕ)
  /-- A renewal fails, and the worker knows. -/
  | loseLease (w : W)
  | startAttempt (w : W) (clock : ℕ)
  /-- The results of an item are committed. An error behind the commit can hide it. -/
  | commit (w : W) (clock : ℕ) (isSeen : Bool)
  | itemError (w : W)
  | succeed (w : W) (clock : ℕ)
  | completeUnsuccessful (w : W) (clock : ℕ)
  /-- An exception that nothing else records. -/
  | fail (w : W)
  | readExpired (w : W) (token : ℕ)
  | expire (w : W) (clock : ℕ)
  | requestCancel
  | cancel
  | reconcile (isSuccess : Bool)
  deriving DecidableEq

/-- `require_active` in the transaction of a write: the lease is renewed. -/
def requireActive (s : State W) (execution : Execution) (clock : ℕ) : Option (Run × Execution) :=
  if execution.isLost ∨ s.now < clock then none
  else (renewRunExecutionLease s.run execution.token (clock + executionLeaseDuration)).map fun run =>
    (run, { execution with expiresAt := clock + executionLeaseDuration })

/-- The row of the node of an item whose results are committed. -/
def commitNode (item : CompiledItem) (execution : Execution) (node : NodeRow) : Option NodeRow :=
  match item.executionKind with
  | .datasetTransform => if execution.isStarted then succeedNode node else none
  | .governedOutputCandidate => claimNodeRun node >>= succeedNode

/-- What a worker knows behind a commit. -/
def Execution.committed (execution : Execution) (item : CompiledItem) (isSeen : Bool) : Execution :=
  if isSeen then
    { execution with
      position := execution.position + 1, isStarted := false
      outputs := if item.isOutput then execution.position :: execution.outputs
        else execution.outputs }
  else { execution with isFailing := true }

/-- `fail_and_skip`. -/
def failAndSkip (items : List CompiledItem) (execution : Execution) (nodes : ℕ → NodeRow) :
    Option (ℕ → NodeRow) :=
  let failed :=
    if execution.isStarted then failNode (nodes execution.position)
    else claimNodeRun (nodes execution.position) >>= failNode
  failed.bind fun node =>
    if ∀ i < items.length, execution.position < i → (skipNode (nodes i)).isSome then
      some fun i =>
        if i = execution.position then node
        else if execution.position < i ∧ i < items.length then (skipNode (nodes i)).getD (nodes i)
        else nodes i
    else none

/-- The status of a run that ended in an error, by the outputs that its worker saw. -/
def unsuccessfulTransition (hasOutputs : Bool) : StatusTransition PipelineRunStatus :=
  if hasOutputs then pipelineRunPartial else pipelineRunFailed

/-- What an event does, where it can happen. -/
def next (items : List CompiledItem) (s : State W) : Event W → Option (State W)
  | .tick duration => some { s with now := s.now + duration }
  | .claim w clock =>
    if s.executions w ≠ none ∨ s.now < clock then none
    else match claimRunExecution s.run s.claims (clock + executionLeaseDuration) clock with
      | none => some s
      | some run => some { s.setExecution w (some
          ⟨s.claims, clock + executionLeaseDuration, 0, false, false, [], false⟩) with
            run, claims := s.claims + 1 }
  | .renew w clock => do
    let execution ← s.executions w
    let (run, execution) ← requireActive s execution clock
    some { s.setExecution w (some execution) with run }
  | .loseLease w => do
    let execution ← s.executions w
    some (s.setExecution w (some { execution with isLost := true }))
  | .startAttempt w clock => do
    let execution ← s.executions w
    let item ← items[execution.position]?
    if execution.isFailing ∨ execution.isStarted ∨ item.executionKind ≠ .datasetTransform then none
    else do
      let (run, execution) ← requireActive s execution clock
      let node ← claimNodeRun (s.nodes execution.position)
      some { s.setExecution w (some { execution with isStarted := true }) with
        run, nodes := Function.update s.nodes execution.position node }
  | .commit w clock isSeen => do
    let execution ← s.executions w
    let item ← items[execution.position]?
    if execution.isFailing then none
    else do
      let (run, execution) ← requireActive s execution clock
      let node ← commitNode item execution (s.nodes execution.position)
      some { s.setExecution w (some (execution.committed item isSeen)) with
        run, nodes := Function.update s.nodes execution.position node
        committed := execution.position :: s.committed }
  | .itemError w => do
    let execution ← s.executions w
    let _ ← items[execution.position]?
    some (s.setExecution w (some { execution with isFailing := true }))
  | .succeed w clock => do
    let execution ← s.executions w
    if execution.isFailing ∨ execution.position ≠ items.length then none
    else do
      let (run, _) ← requireActive s execution clock
      let run ← updateRunTerminal run pipelineRunSucceeded
      some ((s.setExecution w none).write run (.worker w) (s.isHolder (some execution)))
  | .completeUnsuccessful w clock => do
    let execution ← s.executions w
    if execution.isFailing = false then none
    else do
      let (run, _) ← requireActive s execution clock
      let nodes ← failAndSkip items execution s.nodes
      let run ← updateRunTerminal run (unsuccessfulTransition (!execution.outputs.isEmpty))
      some { State.write (s.setExecution w none) run (.worker w)
        (s.isHolder (some execution)) with nodes }
  | .fail w =>
    match updateRunTerminal s.run pipelineRunFailed with
    | none => some (s.setExecution w none)
    | some run =>
      some ((s.setExecution w none).write run (.worker w) (s.isHolder (s.executions w)))
  | .readExpired w token =>
    let recovery : Recovery := ⟨token, s.hasCommittedOutput items⟩
    some { s with recoveries := Function.update s.recoveries w (some recovery) }
  | .expire w clock => do
    let recovery ← s.recoveries w
    let transition := unsuccessfulTransition recovery.hasOutputs
    if s.now < clock then none
    else match expireRunExecution s.run recovery.token clock transition with
      | none => some s
      | some run => some (s.write run (.recovery w) s.hasExpired)
  | .requestCancel =>
    (casStatusUpdate pipelineRunCancelling s.run.status true fun status =>
      { s.run with status }).map fun run => { s with run }
  | .cancel => (updateRunTerminal s.run pipelineRunCancelled).map fun run =>
      s.write run .cancellation true
  | .reconcile isSuccess =>
    (updateRunTerminal s.run (pipelineRunReconciled
      (if isSuccess then .succeeded
        else if s.hasCommittedOutput items then .partiallySucceeded else .failed))).map fun run =>
      s.write run .reconciliation true

end RunExecution

end FoundryLite.Pipeline
