import FoundryLite.Library.Runs
import FoundryLite.Runtime.StatusCas

/-!
# Confirmations of Builder tools

A write through the Builder gateway is challenged before it is executed. A human approves the
challenge, at the control plane or in a widget that holds a token for it, and the approval leaves a
receipt. The request is sent again with the receipt, which is consumed by the transaction that
starts the execution. Asking again for a challenge that is there replaces the token of the widget.

Challenges, tokens, receipts and executions are rows of one table, `ai_execution_runs`, told apart
by the kind in their budget, and named by hashes and fresh identifiers. A call reads the row of the
challenge, and writes in the same database transaction, which sees what others commit in between.
What it writes is conditional on the status of the row.

Hashes are injective here: a hash is what was hashed.
-/

namespace FoundryLite.Aip.Confirmation

open FoundryLite.Runtime (StatusTransition casStatusUpdate)

/-! ### Requests -/

structure RequestContext where
  tenantId : String
  actorUserId : String
  applicationId : Option String
  clientId : Option String
  oauthSessionId : Option String
  roles : List String
  tokenScopes : List String
  deriving DecidableEq

/-- A call of a tool that writes. -/
structure ToolCall where
  applicationId : String
  sessionId : String
  toolId : String
  mode : String
  workspaceRef : String
  argumentsHash : String
  requiredPermission : String
  origin : Option String
  deriving DecidableEq

/-- `FdeMcpRequestBinding`. -/
structure RequestBinding where
  tenantId : String
  actorUserId : String
  applicationId : String
  clientId : String
  oauthSessionId : String
  sessionId : String
  toolId : String
  mode : String
  workspaceRef : String
  argumentsHash : String
  requiredPermission : String
  origin : String
  deriving DecidableEq

def noOrigin : String := "no-origin"

/-- What `x or default` is of a text. -/
def textOr (text : Option String) (default : String) : String :=
  (text.filter fun text => text ≠ "").getD default

def requestBinding (ctx : RequestContext) (call : ToolCall) : RequestBinding where
  tenantId := ctx.tenantId
  actorUserId := ctx.actorUserId
  applicationId := call.applicationId
  clientId := textOr ctx.clientId ""
  oauthSessionId := textOr ctx.oauthSessionId ""
  sessionId := call.sessionId
  toolId := call.toolId
  mode := call.mode
  workspaceRef := call.workspaceRef
  argumentsHash := call.argumentsHash
  requiredPermission := call.requiredPermission
  origin := textOr call.origin noOrigin

/-- `execution_fingerprint`: the binding, with its session left out. -/
def RequestBinding.executionFingerprint (binding : RequestBinding) : RequestBinding :=
  { binding with sessionId := "" }

/-- `as_recorded_session`. -/
def RequestBinding.asRecordedSession (binding recorded : RequestBinding) : RequestBinding :=
  { binding with sessionId := recorded.sessionId }

/-! ### Rows -/

/-- The identifiers of `ai_execution_runs`. Receipts and secrets are numbered as they are drawn. -/
inductive RunId where
  | execution (fingerprint : RequestBinding)
  | challenge (fingerprint : RequestBinding)
  | widgetToken (secret : ℕ)
  | receipt (number : ℕ)
  deriving DecidableEq

/-- `FdeMcpWidgetApprovalBinding`. -/
structure WidgetApprovalBinding where
  tenantId : String
  actorUserId : String
  applicationId : String
  clientId : String
  oauthSessionId : String
  mcpSessionId : String
  challengeId : RunId
  requestBinding : RequestBinding
  origin : String
  deriving DecidableEq

inductive Budget where
  | challenge (requestBinding : RequestBinding) (expiresAt : ℕ)
  | widgetToken (widgetBinding : WidgetApprovalBinding) (expiresAt : ℕ)
  | receipt (challengeId : RunId) (approvedByUserId : String) (requestBinding : RequestBinding)
      (expiresAt : ℕ)
  | execution (requestBinding : RequestBinding)
  deriving DecidableEq

inductive Usage where
  | widgetTokenActive (widgetTokenId : RunId)
  | approved (confirmationReceipt : RunId) (receiptExpiresAt : ℕ) (approvedByUserId : String)
      (widgetTokenId : Option RunId)
  | widgetTokenRevoked
  | widgetTokenConsumed
  | confirmationConsumed
  | executed
  deriving DecidableEq

def Usage.widgetTokenId : Usage → Option RunId
  | .widgetTokenActive id => some id
  | .approved _ _ _ id => id
  | _ => none

inductive AiRunStatus where
  | started | running | succeeded | failed
  deriving DecidableEq

def aiRunSucceeded : StatusTransition AiRunStatus := ⟨[.started, .running], .succeeded⟩

def aiRunChallengeRefreshed : StatusTransition AiRunStatus := ⟨[.started], .started⟩

def aiRunFailed : StatusTransition AiRunStatus := ⟨[.started, .running], .failed⟩

structure ExecutionRun where
  tenantId : String
  actorUserId : String
  status : AiRunStatus
  budget : Budget
  usage : Option Usage
  deriving DecidableEq

def ExecutionRun.widgetTokenId (run : ExecutionRun) : Option RunId :=
  run.usage.bind Usage.widgetTokenId

/-! ### Checks -/

def confirmationTtlSeconds : ℕ := 300

def expiresAt (now : ℕ) : ℕ := now + confirmationTtlSeconds

/-- `can_issue_widget_token`. -/
def canIssueWidgetToken (ctx : RequestContext) (applicationId : String) : Bool :=
  !("service-principal:".toList.isPrefixOf ctx.actorUserId.toList) &&
    !(ctx.roles.contains "osdk_service_principal") && ctx.applicationId == some applicationId &&
    decide (textOr ctx.clientId "" ≠ "") && decide (textOr ctx.oauthSessionId "" ≠ "") &&
    !ctx.tokenScopes.isEmpty

/-- `widget_approval_binding`, of a caller that can hold a token. -/
def widgetApprovalBinding (ctx : RequestContext) (binding : RequestBinding) (challengeId : RunId)
    (origin : Option String) : WidgetApprovalBinding where
  tenantId := ctx.tenantId
  actorUserId := ctx.actorUserId
  applicationId := binding.applicationId
  clientId := ctx.clientId.getD ""
  oauthSessionId := ctx.oauthSessionId.getD ""
  mcpSessionId := binding.sessionId
  challengeId := challengeId
  requestBinding := binding
  origin := textOr origin noOrigin

/-- `_binding_from_budget`, of what is left empty. -/
def RequestBinding.isComplete (binding : RequestBinding) : Bool :=
  [binding.tenantId, binding.actorUserId, binding.applicationId, binding.sessionId, binding.toolId,
    binding.mode, binding.workspaceRef, binding.argumentsHash, binding.requiredPermission,
    binding.origin].all fun value => value ≠ ""

/-- `challenge_binding`: what a challenge asks to approve. -/
def challengeBinding (challenge : ExecutionRun) (applicationId : String) (now : ℕ) :
    Option RequestBinding :=
  match challenge.budget with
  | .challenge binding expiresAt =>
    if challenge.status ∉ [.started, .succeeded] then none
    else if challenge.status = .started ∧ expiresAt ≤ now then none
    else if binding.isComplete && decide (binding.applicationId = applicationId ∧
        challenge.actorUserId = binding.actorUserId) then some binding
    else none
  | _ => none

/-- Where `challenge_replay_conflict_reason` finds none. -/
def isReplayable (challenge : ExecutionRun) (binding : RequestBinding) (now : ℕ) : Bool :=
  match challenge.budget with
  | .challenge recorded expiresAt =>
    decide (recorded = binding.asRecordedSession recorded ∧
      challenge.actorUserId = binding.actorUserId) &&
      (decide (challenge.status = .succeeded) ||
        decide (challenge.status = .started ∧ now < expiresAt))
  | _ => false

/-- Where `widget_token_conflict_reason` finds none. -/
def isUsableToken (token : ExecutionRun) (binding : WidgetApprovalBinding) (now : ℕ) : Bool :=
  match token.budget with
  | .widgetToken recorded expiresAt =>
    decide (token.actorUserId = binding.actorUserId ∧ recorded = binding ∧
      token.status = .running ∧ now < expiresAt)
  | _ => false

/-- Where `receipt_conflict_reason` finds none. -/
def isUsableReceipt (receipt : ExecutionRun) (binding : RequestBinding) (now : ℕ) : Bool :=
  match receipt.budget with
  | .receipt _ _ recorded expiresAt =>
    decide (receipt.status = .running ∧ now < expiresAt ∧
      recorded = binding.asRecordedSession recorded ∧ receipt.actorUserId = binding.actorUserId)
  | _ => false

/-! ### State -/

/-- A call, with the row of the challenge that it has read. -/
inductive Job where
  | replay (ctx : RequestContext) (binding : RequestBinding) (challenge : ExecutionRun) (now : ℕ)
  | approveWidget (ctx : RequestContext) (applicationId : String) (challengeId : RunId)
      (secret : ℕ) (origin : Option String) (challenge : ExecutionRun) (now : ℕ)
  | approve (ctx : RequestContext) (applicationId : String) (challengeId : RunId)
      (challenge : ExecutionRun) (now : ℕ)
  deriving DecidableEq

structure State (W : Type) where
  runs : RunId → Option ExecutionRun
  /-- How many secrets and receipts were drawn. -/
  drawn : ℕ
  jobs : W → Option Job
  /-- The events `mcp_confirmation_consumed`: receipts, and the executions that consumed them. -/
  consumptions : List (RunId × RunId)

variable {W : Type} [DecidableEq W]

def State.initial : State W where
  runs _ := none
  drawn := 0
  jobs _ := none
  consumptions := []

def State.setJob (s : State W) (w : W) (job : Option Job) : State W :=
  { s with jobs := Function.update s.jobs w job }

def State.insert (s : State W) (id : RunId) (run : ExecutionRun) : State W :=
  { s with runs := Function.update s.runs id (some run) }

/-- A secret or a receipt is drawn. -/
def State.draw (s : State W) : State W := { s with drawn := s.drawn + 1 }

/-- `execution_run_by_id`. -/
def State.find (s : State W) (tenantId : String) (id : RunId) : Option ExecutionRun :=
  (s.runs id).filter fun run => run.tenantId = tenantId

/-- `update_execution_run_status`. -/
def State.move (s : State W) (tenantId : String) (id : RunId)
    (transition : StatusTransition AiRunStatus) (usage : Usage) : Option (State W) := do
  let run ← s.find tenantId id
  let moved ← casStatusUpdate transition run.status true fun status =>
    { run with status := status, usage := some usage }
  pure (s.insert id moved)

/-! ### Statements -/

/-- `_issue_and_bind_token`. -/
def issueAndBindToken (s : State W) (ctx : RequestContext) (binding : RequestBinding)
    (challengeId : RunId) (now : ℕ) : Option (State W) :=
  let widgetBinding := widgetApprovalBinding ctx binding challengeId (some binding.origin)
  let token : ExecutionRun :=
    ⟨ctx.tenantId, ctx.actorUserId, .running, .widgetToken widgetBinding (expiresAt now), none⟩
  (s.draw.insert (.widgetToken s.drawn) token).move ctx.tenantId challengeId
    aiRunChallengeRefreshed (.widgetTokenActive (.widgetToken s.drawn))

/-- `revoke_active_in_transaction`, of the token that the challenge named when it was read. -/
def revokeActive (s : State W) (ctx : RequestContext) (challenge : ExecutionRun) :
    Option (State W) :=
  match challenge.widgetTokenId with
  | none => some s
  | some tokenId => s.move ctx.tenantId tokenId aiRunSucceeded .widgetTokenRevoked

/-- The challenge is approved, and `_record_approval`. -/
def approveChallenge (s : State W) (ctx : RequestContext) (challengeId : RunId)
    (binding : RequestBinding) (widgetTokenId : Option RunId) (now : ℕ) : Option (State W) := do
  let usage := Usage.approved (.receipt s.drawn) (expiresAt now) ctx.actorUserId widgetTokenId
  let moved ← s.move ctx.tenantId challengeId aiRunSucceeded usage
  let receipt : ExecutionRun := ⟨ctx.tenantId, binding.actorUserId, .running,
    .receipt challengeId ctx.actorUserId binding (expiresAt now), none⟩
  pure (moved.draw.insert (.receipt s.drawn) receipt)

/-- Whether `_approved_receipt_response` finds the receipt of an approved challenge. -/
def hasApprovedReceipt (s : State W) (ctx : RequestContext) (challengeId : RunId)
    (binding : RequestBinding) (now : ℕ) : Bool :=
  match (s.find ctx.tenantId challengeId).bind ExecutionRun.usage with
  | some (.approved receiptId _ _ _) =>
    (s.find ctx.tenantId receiptId).any fun receipt => isUsableReceipt receipt binding now
  | _ => false

/-- `consume_in_transaction`. -/
def consume (s : State W) (ctx : RequestContext) (receiptId executionId : RunId)
    (binding : RequestBinding) (now : ℕ) : Option (State W) := do
  let receipt ← s.find ctx.tenantId receiptId
  if isUsableReceipt receipt binding now then
    let moved ← s.move ctx.tenantId receiptId aiRunSucceeded .confirmationConsumed
    pure { moved with consumptions := (receiptId, executionId) :: moved.consumptions }
  else none

/-! ### Steps -/

inductive Event (W : Type) where
  /-- `issue_challenge`, which reads the challenge where it is there. -/
  | challenge (w : W) (ctx : RequestContext) (call : ToolCall) (now : ℕ)
  | rotate (w : W)
  /-- The approval of a widget with a secret, which may be any. -/
  | readWidget (w : W) (ctx : RequestContext) (applicationId : String) (challengeId : RunId)
      (secret : ℕ) (origin : Option String) (now : ℕ)
  | approveWidget (w : W)
  /-- The approval of a human at the control plane. -/
  | read (w : W) (ctx : RequestContext) (applicationId : String) (challengeId : RunId) (now : ℕ)
  | approve (w : W)
  /-- `seed`, of a call with a receipt. -/
  | seed (ctx : RequestContext) (call : ToolCall) (receiptId : RunId) (now : ℕ)
  | complete (ctx : RequestContext) (fingerprint : RequestBinding)
  | fail (ctx : RequestContext) (fingerprint : RequestBinding)
  /-- An exception or a crash before the transaction is committed. -/
  | drop (w : W)
  deriving DecidableEq

/-- `_authorized_application_bundle`, of the caller. -/
def isAuthorized (ctx : RequestContext) (applicationId : String) : Bool :=
  decide (ctx.applicationId = some applicationId ∧ textOr ctx.clientId "" ≠ "") &&
    !ctx.tokenScopes.isEmpty

/-- What an event does, where it can happen, under a policy on the permissions of callers. -/
def next (permits : RequestContext → String → Bool) (s : State W) : Event W → Option (State W)
  | .challenge w ctx call now =>
    let binding := requestBinding ctx call
    let challengeId := RunId.challenge binding.executionFingerprint
    if s.jobs w ≠ none ∨ isAuthorized ctx call.applicationId = false then none
    else
      match s.runs challengeId with
      | none =>
        let issued := s.insert challengeId
          ⟨ctx.tenantId, binding.actorUserId, .started, .challenge binding (expiresAt now), none⟩
        if canIssueWidgetToken ctx binding.applicationId then
          issueAndBindToken issued ctx binding challengeId now
        else some issued
      | some challenge =>
        if isReplayable challenge binding now && decide (challenge.status = .started) &&
            canIssueWidgetToken ctx binding.applicationId then
          some (s.setJob w (some (.replay ctx binding challenge now)))
        else some s
  | .rotate w =>
    match s.jobs w with
    | some (.replay ctx binding challenge now) => do
      let revoked ← revokeActive s ctx challenge
      let issued ← issueAndBindToken revoked ctx binding
        (.challenge binding.executionFingerprint) now
      pure (issued.setJob w none)
    | _ => none
  | .readWidget w ctx applicationId challengeId secret origin now =>
    if s.jobs w ≠ none ∨ isAuthorized ctx applicationId = false then none
    else (s.find ctx.tenantId challengeId).map fun challenge =>
      s.setJob w (some (.approveWidget ctx applicationId challengeId secret origin challenge now))
  | .approveWidget w =>
    match s.jobs w with
    | some (.approveWidget ctx applicationId challengeId secret origin challenge now) => do
      let binding ← challengeBinding challenge applicationId now
      let tokenId := RunId.widgetToken secret
      if canIssueWidgetToken ctx binding.applicationId && permits ctx "aip:mcp:confirm" &&
          permits ctx binding.requiredPermission then
        -- A challenge that was read as approved by a widget gives its receipt again.
        if challenge.status = .succeeded ∧ challenge.widgetTokenId ≠ none then none
        else if challenge.status = .started ∧ challenge.widgetTokenId ≠ some tokenId then none
        else
          let token ← s.find ctx.tenantId tokenId
          if isUsableToken token (widgetApprovalBinding ctx binding challengeId origin) now then
            let consumed ← s.move ctx.tenantId tokenId aiRunSucceeded .widgetTokenConsumed
            let approved ← approveChallenge consumed ctx challengeId binding (some tokenId) now
            pure (approved.setJob w none)
          else none
      else none
    | _ => none
  | .read w ctx applicationId challengeId now =>
    if s.jobs w ≠ none ∨ ctx.applicationId ≠ none ∨ ctx.clientId ≠ none then none
    else (s.find ctx.tenantId challengeId).map fun challenge =>
      s.setJob w (some (.approve ctx applicationId challengeId challenge now))
  | .approve w =>
    match s.jobs w with
    | some (.approve ctx applicationId challengeId challenge now) => do
      let binding ← challengeBinding challenge applicationId now
      if permits ctx "aip:mcp:confirm" && permits ctx binding.requiredPermission then
        if challenge.status = .succeeded then none
        else
          let revoked ← revokeActive s ctx challenge
          match approveChallenge revoked ctx challengeId binding none now with
          | some approved => pure (approved.setJob w none)
          -- It was approved behind the read: its receipt is answered again.
          | none =>
            if hasApprovedReceipt revoked ctx challengeId binding now then
              pure (revoked.setJob w none)
            else none
      else none
    | _ => none
  | .seed ctx call receiptId now =>
    let binding := requestBinding ctx call
    let executionId := RunId.execution binding.executionFingerprint
    if isAuthorized ctx call.applicationId = false ∨ s.runs executionId ≠ none then none
    else consume (s.insert executionId
      ⟨ctx.tenantId, ctx.actorUserId, .running, .execution binding, none⟩) ctx receiptId executionId
        binding now
  | .complete ctx fingerprint =>
    s.move ctx.tenantId (.execution fingerprint) aiRunSucceeded .executed
  | .fail ctx fingerprint => s.move ctx.tenantId (.execution fingerprint) aiRunFailed .executed
  | .drop w => some (s.setJob w none)

end FoundryLite.Aip.Confirmation
