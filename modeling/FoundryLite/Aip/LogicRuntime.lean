import FoundryLite.Library.PostOrder
import FoundryLite.Serialiser

/-!
# The logic runtime

A logic graph is a list of blocks, each of which names the blocks it depends on. A run puts them in
order, by a depth-first search from one block after another as they are listed, and executes them in
that order. A condition and an output block read what another block has put out under its name, which
need not be one of the names they depend on. An approval block ends the run.

The tool broker and the proposal service are given by what they answer. What a block was called with
says at which place of the run it stands and what the clock read there.
-/

namespace FoundryLite.Aip.LogicRuntime

/-! ### Graphs -/

/-- `_SUPPORTED_BLOCKS`. -/
def supportedBlocks : List String :=
  ["Input", "CallFunction", "Condition", "CreateActionProposal", "HumanApproval", "ApplyAction", "Output"]

structure LogicBlock where
  blockId : String
  kind : String
  inputs : Mapping := []
  dependsOn : List String := []

/-- What a run raises: an error of the runtime, or one of a service that it calls. -/
inductive LogicFailure
  | runtime (reason detail : String)
  | service (error : FoundryLiteError)

abbrev Logic := Except LogicFailure

def logicRuntimeError {α : Type} (reason detail : String) : Logic α := throw (.runtime reason detail)

/-- `_required_text`. -/
def requiredText (value fieldName : String) : Logic Unit :=
  if value = "" then logicRuntimeError "schema_invalid" s!"{fieldName} must be non-empty" else pure ()

/-- The checks of `_blocks_by_id`, after the blocks with these ids. -/
def checkBlocks (known : List String) : List LogicBlock → Logic Unit
  | [] => pure ()
  | block :: blocks => do
    requiredText block.blockId "block_id"
    if block.blockId ∈ known then
      logicRuntimeError "duplicate_block" s!"duplicate Logic block id {block.blockId}"
    else if block.kind ∉ supportedBlocks then
      logicRuntimeError "unsupported_block" s!"unsupported Logic block kind {block.kind}"
    else checkBlocks (block.blockId :: known) blocks

/-- `by_id.get` and `depends_on`. -/
def graphOf (blocks : List LogicBlock) : PostOrder.Graph LogicBlock String where
  key := LogicBlock.blockId
  needs := LogicBlock.dependsOn
  find? blockId := blocks.find? fun block => block.blockId = blockId
  key_of_find? _ _ h := by simpa using List.find?_some h

def failureOf : PostOrder.Failure LogicBlock String → LogicFailure
  | .missing block dependencyId =>
    .runtime "missing_dependency" s!"block {block.blockId} depends on {dependencyId}"
  | .cycle => .runtime "cycle_detected" "logic graph contains a dependency cycle"

/-- `_topological_order`, with its `_visit_iterative`; `none` when it is given too few rounds. -/
def topologicalOrder (rounds : ℕ) (blocks : List LogicBlock) : Option (Logic (List LogicBlock)) :=
  match checkBlocks [] blocks with
  | .error failure => some (.error failure)
  | .ok () => (PostOrder.order (graphOf blocks) rounds blocks).map fun result => result.mapError failureOf

/-! ### Requests to the services -/

structure LogicRunRequest where
  logicRunId : String
  aiRunId : String
  blocks : List LogicBlock
  inputJson : Mapping
  toolManifest : List Mapping := []
  agentAllowedTools : List String := []
  agentAllowedActions : List String := []
  modelAllowedClassifications : List String := ["public"]
  policyVersion : String := "policy-v1"
  maxBlocks : ℤ := 25
  remainingTimeoutSeconds : ℤ := 30
  maxToolOutputBytes : ℤ := 4096

structure ToolCallRequest where
  toolCallId : String
  toolId : String
  version : String
  argumentsJson : String
  aiRunId : String
  sequence : ℕ
  requestId : String
  idempotencyKey : String
  occurredAt : String

structure ToolBrokerRequest where
  toolCall : ToolCallRequest
  toolManifest : List Mapping
  agentAllowedTools : List String
  modelAllowedClassifications : List String
  remainingTimeoutSeconds : ℤ
  maxToolOutputBytes : ℤ

structure ToolBrokerResult where
  toolCallId : String
  status : String
  outputJson : Mapping
  argumentsHash : String
  resultHash : String

structure ActionProposalRequest where
  originatingAiRunId : String
  actionType : String
  targetObjectType : String
  targetObjectId : String
  expectedObjectVersion : ℤ
  parameters : Mapping
  evidenceContextIds : List String
  agentAllowedActions : List String
  policyVersion : String
  expiresAt : String
  claimText : String
  originatingToolCallId : Option String
  priority : String
  assigneeUserId : Option String

structure ActionProposalResult where
  proposalId : String
  proposalFingerprint : String
  reviewId : String
  status : Json

/-- What a run is surrounded by. -/
structure Services where
  serialiser : Serialiser
  /-- `json.dumps`, with sorted keys and no blanks. -/
  jsonBlock : Mapping → String
  aiRunExists : String → Bool
  /-- `tool_broker_service.execute`, with the record of the call in the ledger. -/
  execute : ToolBrokerRequest → Except FoundryLiteError ToolBrokerResult
  /-- `action_proposal_service.propose`. -/
  propose : ActionProposalRequest → Except FoundryLiteError ActionProposalResult

/-! ### Reading a block's inputs -/

def schemaInvalid {α : Type} (block : LogicBlock) (key demand : String) : Logic α :=
  logicRuntimeError "schema_invalid" s!"{block.blockId}.{key} must be {demand}"

/-- `_required_input_text`. -/
def requiredInputText (block : LogicBlock) (key : String) : Logic String :=
  match block.inputs.lookup key with
  | some (.str value) => if value = "" then schemaInvalid block key "a non-empty string" else pure value
  | _ => schemaInvalid block key "a non-empty string"

/-- `_optional_input_text`. -/
def optionalInputText (block : LogicBlock) (key : String) : Option String :=
  match block.inputs.lookup key with
  | some (.str value) => if value = "" then none else some value
  | _ => none

/-- `_required_input_int`. -/
def requiredInputInt (block : LogicBlock) (key : String) : Logic ℤ :=
  match block.inputs.lookup key with
  | some (.int value) => if 0 < value then pure value else schemaInvalid block key "a positive integer"
  | _ => schemaInvalid block key "a positive integer"

/-- `_required_input_mapping`. -/
def requiredInputMapping (block : LogicBlock) (key : String) : Logic Mapping :=
  match block.inputs.lookup key with
  | some (.obj value) => pure value
  | _ => schemaInvalid block key "an object"

def nonEmptyText : Json → Option String
  | .str item => if item = "" then none else some item
  | _ => none

/-- `_required_input_tuple`. -/
def requiredInputTuple (block : LogicBlock) (key : String) : Logic (List String) :=
  match block.inputs.lookup key with
  | some (.arr items) =>
    match items.mapM nonEmptyText with
    | some texts => pure texts
    | none => schemaInvalid block key "a list of strings"
  | _ => schemaInvalid block key "a list of strings"

/-- `_text`. -/
def textOr (source : Mapping) (key default : String) : String :=
  match source.lookup key with
  | some (.str value) => if value = "" then default else value
  | _ => default

/-! ### Blocks -/

section Run

variable (services : Services) (now : ℕ → String) (request : LogicRunRequest)

/-- `_arguments_json`. -/
def argumentsJson : Option Json → Logic String
  | some (.str value) => pure value
  | some (.obj fields) => pure (services.jsonBlock fields)
  | _ => logicRuntimeError "schema_invalid" "CallFunction arguments must be a JSON object or JSON string"

/-- `_tool_call_request`. -/
def toolCallRequest (block : LogicBlock) (sequence : ℕ) : Logic ToolCallRequest := do
  let toolId ← requiredInputText block "toolId"
  let version ← requiredInputText block "version"
  let arguments ← argumentsJson services (block.inputs.lookup "arguments")
  pure
    { toolCallId := textOr block.inputs "toolCallId" s!"{request.logicRunId}-{block.blockId}"
      toolId
      version
      argumentsJson := arguments
      aiRunId := request.aiRunId
      sequence
      requestId := textOr block.inputs "requestId" request.logicRunId
      idempotencyKey := textOr block.inputs "idempotencyKey" ""
      occurredAt := textOr block.inputs "occurredAt" (now sequence) }

def callService {α : Type} (answer : Except FoundryLiteError α) : Logic α := answer.mapError .service

/-- `_call_function`. -/
def callFunction (block : LogicBlock) (sequence : ℕ) : Logic Mapping := do
  let toolCall ← toolCallRequest services now request block sequence
  let result ← callService (services.execute
    { toolCall
      toolManifest := request.toolManifest
      agentAllowedTools := request.agentAllowedTools
      modelAllowedClassifications := request.modelAllowedClassifications
      remainingTimeoutSeconds := request.remainingTimeoutSeconds
      maxToolOutputBytes := request.maxToolOutputBytes })
  pure [("toolCallId", .str result.toolCallId), ("status", .str result.status),
    ("output", .obj result.outputJson), ("argumentsHash", .str result.argumentsHash),
    ("resultHash", .str result.resultHash)]

/-- `_proposal_request`. -/
def proposalRequest (block : LogicBlock) : Logic ActionProposalRequest := do
  let actionType ← requiredInputText block "actionType"
  let targetObjectType ← requiredInputText block "targetObjectType"
  let targetObjectId ← requiredInputText block "targetObjectId"
  let expectedObjectVersion ← requiredInputInt block "expectedObjectVersion"
  let parameters ← requiredInputMapping block "parameters"
  let evidenceContextIds ← requiredInputTuple block "evidenceContextIds"
  let expiresAt ← requiredInputText block "expiresAt"
  let claimText ← requiredInputText block "claimText"
  pure
    { originatingAiRunId := request.aiRunId
      actionType
      targetObjectType
      targetObjectId
      expectedObjectVersion
      parameters
      evidenceContextIds
      agentAllowedActions := request.agentAllowedActions
      policyVersion := request.policyVersion
      expiresAt
      claimText
      originatingToolCallId := optionalInputText block "originatingToolCallId"
      priority := textOr block.inputs "priority" "normal"
      assigneeUserId := optionalInputText block "assigneeUserId" }

/-- `_create_action_proposal`. -/
def createActionProposal (block : LogicBlock) : Logic Mapping := do
  let proposed ← proposalRequest request block
  let proposal ← callService (services.propose proposed)
  pure [("proposalId", .str proposal.proposalId),
    ("proposalFingerprint", .str proposal.proposalFingerprint), ("reviewId", .str proposal.reviewId),
    ("status", proposal.status)]

/-- `_input_output`. -/
def inputOutput (block : LogicBlock) : Mapping :=
  [("value", .obj (if block.inputs = [] then request.inputJson else block.inputs))]

def outputJson : Option Mapping → Json
  | some output => .obj output
  | none => .null

/-- `_condition_output`, of what was put out under a name. -/
def conditionOutput (block : LogicBlock) (state : String → Option Mapping) : Logic Mapping := do
  let source ← requiredInputText block "fromBlock"
  let expected := (block.inputs.lookup "equals").getD (.bool true)
  pure [("condition", .bool (decide (Json.PyEq (outputJson (state source)) expected))),
    ("sourceBlock", .str source)]

/-- `_output_block`. -/
def outputBlock (block : LogicBlock) (state : String → Option Mapping) : Logic Mapping :=
  match block.inputs.lookup "fromBlock" with
  | some (.str source) =>
    match state source with
    | some output => pure output
    | none => logicRuntimeError "missing_output_source" s!"output source block {source} has not run"
  | _ => pure [("value", .obj block.inputs)]

/-- `_execute_block`. -/
def executeBlock (block : LogicBlock) (state : String → Option Mapping) (sequence : ℕ) :
    Logic Mapping :=
  if block.kind = "Input" then pure (inputOutput request block)
  else if block.kind = "Condition" then conditionOutput block state
  else if block.kind = "CallFunction" then callFunction services now request block sequence
  else if block.kind = "CreateActionProposal" then createActionProposal services request block
  else if block.kind = "HumanApproval" then
    pure [("status", .str "waiting_human_review"),
      ("reason", .str (textOr block.inputs "reason" "approval_required"))]
  else if block.kind = "ApplyAction" then
    logicRuntimeError "human_approval_required" "ApplyAction requires an approved proposal signal"
  else if block.kind = "Output" then outputBlock block state
  else logicRuntimeError "unsupported_block" s!"unsupported Logic block kind {block.kind}"

/-! ### Results -/

mutual

/-- `_safe_preview`. -/
def safePreview : Json → Json
  | .obj fields => .obj ((Dict.canon (previewFields fields)).take 10)
  | .arr items => .arr ((previewItems items).take 10)
  | .str value => .str (if 160 < value.length then String.ofList (value.toList.take 157) ++ "..." else value)
  | value => value

def previewItems : List Json → List Json
  | [] => []
  | item :: items => safePreview item :: previewItems items

def previewFields : List (String × Json) → List (String × Json)
  | [] => []
  | (key, value) :: fields => (key, safePreview value) :: previewFields fields

end

structure LogicBlockResult where
  blockId : String
  kind : String
  status : String
  outputHash : String
  outputPreview : Mapping

/-- `_hash_json`. -/
def hashJson (value : Mapping) : String := s!"sha256:{services.serialiser.jsonHash value}"

/-- `_block_result`. -/
def blockResult (block : LogicBlock) (output : Mapping) : LogicBlockResult where
  blockId := block.blockId
  kind := block.kind
  status := "succeeded"
  outputHash := hashJson services output
  outputPreview := (Dict.canon (previewFields output)).take 10

/-! ### The run -/

/-- `state` and `results` of `run`. -/
structure RunState where
  state : Dict String Mapping := ∅
  results : List LogicBlockResult := []

/-- One block of `_run_blocks`. -/
def runBlock (s : RunState) (block : LogicBlock) : Logic RunState := do
  let output ← executeBlock services now request block s.state.get? (s.results.length + 1)
  pure ⟨s.state.insert block.blockId output, s.results ++ [blockResult services block output]⟩

/-- `_run_blocks`. -/
def runBlocks : List LogicBlock → RunState → Logic (String × RunState)
  | [], s => pure ("succeeded", s)
  | block :: order, s => do
    if request.maxBlocks ≤ s.results.length then
      logicRuntimeError "budget_exceeded" "logic block count exceeds max_blocks"
    else do
      let s ← runBlock services now request s block
      if block.kind = "HumanApproval" then pure ("waiting_human_review", s) else runBlocks order s

/-- `_terminal_output`. -/
def terminalOutput (order : List LogicBlock) (state : Dict String Mapping) : Mapping :=
  (order.reverse.findSome? fun block => state.get? block.blockId).getD []

/-- `_validate_request`, apart from the order, which the run computes once more. -/
def validateRequest : Logic Unit := do
  requiredText request.logicRunId "logic_run_id"
  requiredText request.aiRunId "ai_run_id"
  if request.blocks = [] then
    logicRuntimeError "empty_graph" "logic graph must contain at least one block"
  else if request.maxBlocks ≤ 0 then logicRuntimeError "invalid_budget" "max_blocks must be positive"
  else if request.maxBlocks < request.blocks.length then
    logicRuntimeError "budget_exceeded" "logic graph exceeds max_blocks"
  else pure ()

structure LogicRunResult where
  logicRunId : String
  aiRunId : String
  status : String
  resultHash : String
  blockResults : List LogicBlockResult
  outputJson : Mapping
  /-- What each block has put out, which the run keeps to itself. -/
  state : Dict String Mapping

/-- The part of `run` after the order. -/
def runOrdered (graphHash : String) (order : List LogicBlock) : Logic LogicRunResult := do
  if services.aiRunExists request.aiRunId then
    let (status, s) ← runBlocks services now request order {}
    let output := terminalOutput order s.state
    pure
      { logicRunId := request.logicRunId
        aiRunId := request.aiRunId
        status
        resultHash := hashJson services
          [("status", .str status), ("output", .obj output), ("graphHash", .str graphHash)]
        blockResults := s.results
        outputJson := output
        state := s.state }
  else logicRuntimeError "run_not_found" s!"AI run {request.aiRunId} was not found"

/-- `_graph_hash`. -/
def graphHash : String :=
  hashJson services [("logicRunId", .str request.logicRunId), ("aiRunId", .str request.aiRunId),
    ("blocks", .arr (request.blocks.map fun block => .obj [("blockId", .str block.blockId),
      ("kind", .str block.kind), ("inputs", .obj block.inputs),
      ("dependsOn", .arr (block.dependsOn.map .str))]))]

/-- `run`. -/
def run (rounds : ℕ) : Option (Logic LogicRunResult) :=
  match validateRequest request with
  | .error failure => some (.error failure)
  | .ok () => (topologicalOrder rounds request.blocks).map fun order =>
      order.bind (runOrdered services now request (graphHash services request))

end Run

end FoundryLite.Aip.LogicRuntime
