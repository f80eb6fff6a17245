import FoundryLite.Library.Runs
import FoundryLite.Library.Table
import Mathlib.Data.List.Sort
import Mathlib.Data.Rat.Floor

/-!
# Fixed-window counters

Every authenticated call counts in a window of its identity: the tenant, plane, application, client,
actor and scope, and the window of time that the calling server's clock falls into. The first call
makes the counter and the others add to it, in one statement each, and a call is allowed while the
count is within the limit. Before that, the call deletes the counters of its tenant that have expired
at the beginning of its own window, the oldest first and no more than a batch of them.

Each server reads a clock of its own, so a call can count in a window that another has seen expire.
-/

namespace FoundryLite.Mcp.RateLimiter

/-! ### Requests and decisions -/

inductive McpPlane
  | builder
  | ontology
  | release
  deriving DecidableEq

inductive McpRateLimitScope
  | endpoint
  | tool
  deriving DecidableEq

structure McpRateLimitRequest where
  tenantId : String
  plane : McpPlane
  applicationId : String
  clientId : String
  actorUserId : String
  limitScope : McpRateLimitScope
  limit : ℤ
  windowSeconds : ℤ
  requestId : String
  observedAtEpoch : ℚ
  observedAt : String

structure McpRateLimitDecision where
  isAllowed : Bool
  evidenceId : String
  requestCount : ℕ
  deniedCount : ℕ
  limit : ℤ
  windowSeconds : ℤ
  windowStartedAtEpoch : ℤ
  windowExpiresAtEpoch : ℤ
  retryAfterSeconds : ℤ

/-- `_IDENTITY_COLUMNS`. -/
structure WindowIdentity where
  tenantId : String
  plane : McpPlane
  applicationId : String
  clientId : String
  actorUserId : String
  limitScope : McpRateLimitScope
  windowStartedAtEpoch : ℤ
  deriving DecidableEq

/-- A row of `mcp_rate_limit_windows`. -/
structure RateLimitWindow where
  id : String
  identity : WindowIdentity
  windowExpiresAtEpoch : ℤ
  limitValue : ℤ
  windowSeconds : ℤ
  requestCount : ℕ
  deniedCount : ℕ
  lastRequestId : String
  lastDeniedAt : Option String
  createdAt : String
  updatedAt : String

abbrev Windows := Table RateLimitWindow.id RateLimitWindow.identity

/-- What a call raises. -/
inductive Failure
  | valueError (message : String)
  | integrityError

/-! ### One call -/

/-- `_window_start`. -/
def windowStart (request : McpRateLimitRequest) : ℤ :=
  ⌊request.observedAtEpoch / request.windowSeconds⌋ * request.windowSeconds

def windowExpiry (request : McpRateLimitRequest) : ℤ := windowStart request + request.windowSeconds

def identityOf (request : McpRateLimitRequest) : WindowIdentity where
  tenantId := request.tenantId
  plane := request.plane
  applicationId := request.applicationId
  clientId := request.clientId
  actorUserId := request.actorUserId
  limitScope := request.limitScope
  windowStartedAtEpoch := windowStart request

/-- `_PRUNE_BATCH_SIZE`. -/
def pruneBatchSize : ℕ := 128

/-- `order_by(window_expires_at_epoch, id)`. -/
def expiresBefore (row other : RateLimitWindow) : Prop :=
  row.windowExpiresAtEpoch < other.windowExpiresAtEpoch ∨
    row.windowExpiresAtEpoch = other.windowExpiresAtEpoch ∧ row.id ≤ other.id

instance : DecidableRel expiresBefore := fun _ _ => inferInstanceAs (Decidable (_ ∨ _))

/-- `expired_ids` of `_prune_expired`. -/
def expiredIds (windows : Windows) (request : McpRateLimitRequest) : List String :=
  (((windows.rows.filter fun row => row.identity.tenantId = request.tenantId ∧
      row.windowExpiresAtEpoch ≤ windowStart request).insertionSort expiresBefore).take
    pruneBatchSize).map RateLimitWindow.id

/-- `_prune_expired`. -/
def pruneExpired (windows : Windows) (request : McpRateLimitRequest) : Windows :=
  windows.deleteWhere fun row => row.id ∈ expiredIds windows request

/-- `_insert_values`. -/
def insertValues (request : McpRateLimitRequest) (candidateEvidenceId : String) : RateLimitWindow where
  id := candidateEvidenceId
  identity := identityOf request
  windowExpiresAtEpoch := windowExpiry request
  limitValue := request.limit
  windowSeconds := request.windowSeconds
  requestCount := 1
  deniedCount := 0
  lastRequestId := request.requestId
  lastDeniedAt := none
  createdAt := request.observedAt
  updatedAt := request.observedAt

/-- `_conflict_updates`. -/
def conflictUpdates (request : McpRateLimitRequest) :
    Table.Update RateLimitWindow.id RateLimitWindow.identity where
  apply row :=
    { row with
      limitValue := request.limit
      windowSeconds := request.windowSeconds
      requestCount := row.requestCount + 1
      deniedCount := row.deniedCount + if request.limit ≤ row.requestCount then 1 else 0
      lastRequestId := request.requestId
      lastDeniedAt :=
        if request.limit ≤ row.requestCount then some request.observedAt else row.lastDeniedAt
      updatedAt := request.observedAt }
  pk_apply _ := rfl
  uq_apply _ := rfl

/-- The statement of `_upsert_statement`, and the row that it returns. -/
def upsert (windows : Windows) (request : McpRateLimitRequest) (candidateEvidenceId : String) :
    Except Failure (Windows × RateLimitWindow) :=
  match windows.get? (identityOf request) with
  | some row => .ok (windows.updateRow row.id (conflictUpdates request), (conflictUpdates request).apply row)
  | none =>
    match windows.insert? (insertValues request candidateEvidenceId) with
    | some inserted => .ok (inserted, insertValues request candidateEvidenceId)
    | none => .error .integrityError

def retryAfter (request : McpRateLimitRequest) (isAllowed : Bool) : ℤ :=
  if isAllowed then 0 else max 1 ⌈(windowExpiry request : ℚ) - request.observedAtEpoch⌉

/-- The decision that `consume` returns for the row. -/
def decisionOf (request : McpRateLimitRequest) (row : RateLimitWindow) : McpRateLimitDecision :=
  let isAllowed : Bool := (row.requestCount : ℤ) ≤ request.limit
  { isAllowed
    evidenceId := row.id
    requestCount := row.requestCount
    deniedCount := row.deniedCount
    limit := request.limit
    windowSeconds := request.windowSeconds
    windowStartedAtEpoch := windowStart request
    windowExpiresAtEpoch := windowExpiry request
    retryAfterSeconds := retryAfter request isAllowed }

/-- `_require_positive_window`. -/
def requirePositiveWindow (request : McpRateLimitRequest) : Except Failure Unit :=
  if request.limit ≤ 0 then .error (.valueError "MCP rate limit must be greater than zero")
  else if request.windowSeconds ≤ 0 then
    .error (.valueError "MCP rate-limit window must be greater than zero")
  else .ok ()

/-- `consume`. -/
def consume (windows : Windows) (request : McpRateLimitRequest) (candidateEvidenceId : String) :
    Except Failure (Windows × McpRateLimitDecision) := do
  requirePositiveWindow request
  let (windows, row) ← upsert (pruneExpired windows request) request candidateEvidenceId
  pure (windows, decisionOf request row)

/-! ### Calls one after another -/

/-- A call that was decided. -/
structure Call where
  request : McpRateLimitRequest
  decision : McpRateLimitDecision
  /-- The counters that it deleted as expired. -/
  pruned : List RateLimitWindow

structure State where
  windows : Windows := ∅
  /-- The calls so far, newest first. -/
  calls : List Call := []

/-- A request, with the evidence id that is drawn for it. -/
structure Attempt where
  request : McpRateLimitRequest
  candidateEvidenceId : String

/-- One call in a transaction of its own. A call that raises leaves nothing and decides nothing. -/
def next (s : State) (attempt : Attempt) : Option State :=
  match consume s.windows attempt.request attempt.candidateEvidenceId with
  | .ok (windows, decision) =>
    let pruned := s.windows.rows.filter fun row => row.id ∈ expiredIds s.windows attempt.request
    some ⟨windows, ⟨attempt.request, decision, pruned⟩ :: s.calls⟩
  | .error _ => none

end FoundryLite.Mcp.RateLimiter
