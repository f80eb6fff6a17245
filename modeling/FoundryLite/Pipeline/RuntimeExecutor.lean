import FoundryLite.Library.Text
import FoundryLite.Serialiser
import Mathlib.Data.List.Sort
import Mathlib.Data.Prod.Lex

/-!
# The executor of a pipeline graph

The executor takes the nodes of a plan in order. A node whose upstream artifacts are all there is
executed, any other is skipped. An artifact node goes to the dispatcher with what its upstream nodes
made; an output that is only proposed goes to the committer of candidates, which is not told what
they made. A failure does not end the run. An error that leaves it open whether an output was
committed is recorded with the artifact, so that somebody can reconcile them.

The evidence writer is taken not to raise where it starts, fails or skips an attempt. Where an
attempt succeeds it may refuse the artifact.
-/

namespace FoundryLite.Pipeline.RuntimeExecutor

/-! ### Plans -/

structure RuntimeNode where
  nodeId : String
  kind : String
  descriptorId : String
  specVersion : ℤ
  runtimeCapability : String
  config : Mapping
  deriving DecidableEq

structure RuntimeEdge where
  edgeId : String
  sourceNodeId : String
  sourcePortId : String
  targetNodeId : String
  targetPortId : String
  deriving DecidableEq

structure RuntimeArtifact where
  nodeId : String
  portId : String
  artifactKind : String
  plane : String
  artifactRef : Mapping
  manifest : Mapping
  status : String
  isServing : Bool
  deriving DecidableEq

/-- The row that is recorded for an artifact. -/
structure ArtifactRow where
  id : String
  portId : String
  artifactKind : String
  isServing : Bool
  deriving DecidableEq

/-- What the dispatcher is given: the artifacts on each port. -/
abbrev RuntimeInputs := Dict String (List RuntimeArtifact)

/-- What the dispatcher does with a node; `exc` is an exception. -/
inductive DispatchOutcome (exc : Type) where
  | artifact (artifact : RuntimeArtifact)
  | raised (error : exc)
  /-- The output is committed, and something failed after that. -/
  | reconciliationRequired (artifact : RuntimeArtifact) (cause : exc)
  /-- It is not known whether the output is committed. -/
  | outcomeUnknown (artifact : RuntimeArtifact) (cause : exc)

structure CandidateItem where
  nodeId : String
  descriptorId : String
  specVersion : ℤ
  resourceRef : String
  config : Mapping
  artifactKind : String
  plane : String
  portId : String
  candidateType : String
  deriving DecidableEq

structure CandidateResult where
  output : Mapping
  timelineEvent : Mapping

/-- What runs the nodes: the dispatcher, the committer of candidates, the recording of an artifact,
and the payload of an exception. -/
structure Runtime (exc : Type) extends Serialiser where
  dispatch : RuntimeNode → RuntimeInputs → DispatchOutcome exc
  /-- Record the artifact of a node under a new id, or refuse it. -/
  succeed : RuntimeNode → RuntimeArtifact → Except exc String
  commit : CandidateItem → Except exc CandidateResult
  errorPayload : exc → Mapping
  /-- An error of the domain layer is an exception. -/
  domainError : FoundryLiteError → exc

/-! ### The state -/

inductive TimelineEvent where
  | started
  | succeeded (node : RuntimeNode) (row : ArtifactRow)
  | candidate (node : RuntimeNode) (event : Mapping)
  | failed (event : String) (node : RuntimeNode) (error : Mapping)
  | skipped (node : RuntimeNode) (error : Mapping)
  | terminal (event : String) (outputCount committedOutputCount : ℕ) (failedNodeId : Option String)
      (skippedNodeIds : List String)

structure ExecutionState where
  artifacts : Dict String RuntimeArtifact
  persisted : Dict String ArtifactRow
  outputs : List Mapping
  timeline : List TimelineEvent
  error : Option Mapping
  failedNodeId : Option String
  skipped : List String
  /-- What the dispatcher was asked. -/
  dispatched : List (String × RuntimeInputs)
  /-- What the committer was asked. -/
  submitted : List CandidateItem

/-! ### Upstream -/

/-- The edges to a node, by port, source and edge. -/
def incomingEdges (nodeId : String) (edges : List RuntimeEdge) : List RuntimeEdge :=
  (edges.filter fun edge => edge.targetNodeId = nodeId).insertionSort fun edge edge' =>
    toLex (edge.targetPortId, toLex (edge.sourceNodeId, edge.edgeId)) ≤
      toLex (edge'.targetPortId, toLex (edge'.sourceNodeId, edge'.edgeId))

def missingUpstream (node : RuntimeNode) (edges : List RuntimeEdge)
    (artifacts : Dict String RuntimeArtifact) : List String :=
  (Dict.sortedSet ((edges.filter fun edge => edge.targetNodeId = node.nodeId).map
    RuntimeEdge.sourceNodeId)).filter fun source => (artifacts.get? source).isNone

def inputArtifact (nodeId : String) (artifacts : Dict String RuntimeArtifact) (edge : RuntimeEdge) :
    Checked RuntimeArtifact :=
  match artifacts.get? edge.sourceNodeId with
  | none => throw (invariantViolation "pipeline upstream artifact is unavailable"
      [("nodeId", .str nodeId), ("sourceNodeId", .str edge.sourceNodeId)])
  | some artifact =>
    if artifact.portId ≠ edge.sourcePortId then
      throw (invariantViolation "pipeline runtime artifact port does not match the execution plan"
        [("nodeId", .str nodeId), ("sourceNodeId", .str edge.sourceNodeId),
          ("expectedPortId", .str edge.sourcePortId), ("actualPortId", .str artifact.portId)])
    else pure artifact

def inputArtifactsForNode (nodeId : String) (edges : List RuntimeEdge)
    (artifacts : Dict String RuntimeArtifact) : Checked RuntimeInputs :=
  (incomingEdges nodeId edges).foldlM (fun grouped edge => do
    let artifact ← inputArtifact nodeId artifacts edge
    return grouped.insert edge.targetPortId
      ((grouped.get? edge.targetPortId).getD [] ++ [artifact])) ∅

/-- `_input_evidence`: the row of an upstream artifact, with the port it comes in on. -/
def inputEvidence (persisted : Dict String ArtifactRow) (edge : RuntimeEdge) :
    Checked (String × ArtifactRow) :=
  match persisted.get? edge.sourceNodeId with
  | none => throw (invariantViolation "pipeline upstream evidence artifact is unavailable"
      [("nodeId", .str edge.targetNodeId), ("sourceNodeId", .str edge.sourceNodeId)])
  | some row =>
    if row.portId ≠ edge.sourcePortId then
      throw (invariantViolation "pipeline upstream evidence port does not match the plan"
        [("edgeId", .str edge.edgeId)])
    else pure (edge.targetPortId, row)

def runtimeInputEvidence (node : RuntimeNode) (edges : List RuntimeEdge)
    (persisted : Dict String ArtifactRow) : Checked (List (String × ArtifactRow)) :=
  (incomingEdges node.nodeId edges).mapM (inputEvidence persisted)

/-- The evidence of those upstream artifacts that there are. -/
def availableRuntimeInputEvidence (node : RuntimeNode) (edges : List RuntimeEdge)
    (persisted : Dict String ArtifactRow) : Checked (List (String × ArtifactRow)) :=
  ((incomingEdges node.nodeId edges).filter fun edge =>
    (persisted.get? edge.sourceNodeId).isSome).mapM (inputEvidence persisted)

/-! ### Payloads -/

def upstreamError (node : RuntimeNode) (missing : List String) : Mapping :=
  [("code", .str "PIPELINE_UPSTREAM_ARTIFACT_UNAVAILABLE"),
    ("message", .str "pipeline node was skipped because an upstream artifact failed"),
    ("details", .obj [("nodeId", .str node.nodeId), ("sourceNodeIds", .arr (missing.map .str))])]

def committedDetails (node : RuntimeNode) (cause : Mapping) : Mapping :=
  [("nodeId", .str node.nodeId), ("descriptorId", .str node.descriptorId),
    ("servingCommitPreserved", .bool true), ("cause", .obj cause)]

def committedOutputEvidenceError (node : RuntimeNode) (cause : Mapping) : Mapping :=
  [("type", .str "PIPELINE_OUTPUT_EVIDENCE_PERSISTENCE_FAILED"),
    ("message", .str
      "serving output committed but its pipeline artifact passport requires reconciliation"),
    ("details", .obj (committedDetails node cause))]

def committedOutputPostCommitError (node : RuntimeNode) (cause : Mapping) : Mapping :=
  [("type", .str "PIPELINE_OUTPUT_POST_COMMIT_VALIDATION_FAILED"),
    ("message", .str "serving output committed but post-commit validation requires reconciliation"),
    ("details", .obj (committedDetails node cause))]

def commitOutcomeUnknownError (node : RuntimeNode) (cause : Mapping) : Mapping :=
  [("type", .str "PIPELINE_OUTPUT_COMMIT_OUTCOME_UNKNOWN"),
    ("message", .str
      "serving output commit outcome is unknown and requires transaction reconciliation"),
    ("details", .obj [("nodeId", .str node.nodeId), ("descriptorId", .str node.descriptorId),
      ("servingCommitState", .str "UNKNOWN"), ("transactionReconciliationRequired", .bool true),
      ("cause", .obj cause)])]

/-- A value of a mapping, `None` where there is none. -/
def valueOf (mapping : Mapping) (key : String) : Json := (mapping.lookup key).getD .null

def runtimeOutputPayload (env : Serialiser) (artifact : RuntimeArtifact) (row : ArtifactRow) :
    Mapping :=
  let stated := valueOf artifact.manifest "commitKind"
  let commitKind := if artifact.isServing then "SERVING_ASSET"
    else if stated.isTruthy then env.str stated else "INTERMEDIATE"
  [("nodeId", .str artifact.nodeId), ("artifactKind", .str artifact.artifactKind),
    ("plane", .str artifact.plane), ("status", .str artifact.status),
    ("commitKind", .str commitKind), ("isServing", .bool artifact.isServing),
    ("ref", .obj (("artifactId", .str row.id) :: artifact.artifactRef)),
    ("manifest", .obj artifact.manifest)]

def committedOutputReconciliationPayload (artifact : RuntimeArtifact) (error : Mapping) : Mapping :=
  [("nodeId", .str artifact.nodeId), ("artifactKind", .str artifact.artifactKind),
    ("plane", .str artifact.plane), ("status", .str artifact.status),
    ("commitKind", .str "SERVING_ASSET"), ("isServing", .bool artifact.isServing),
    ("ref", .obj artifact.artifactRef), ("manifest", .obj artifact.manifest),
    ("artifactEvidence", .obj [("status", .str "RECONCILIATION_REQUIRED"),
      ("isDurableRunOutput", .bool true), ("error", .obj error)])]

def isCandidate (node : RuntimeNode) : Bool :=
  node.descriptorId ∈ ["output.semantic_index", "output.ontology"]

/-- The artifact kind and the plane of an output, by its descriptor. -/
def outputPlanes : List (String × (String × String)) :=
  [("output.dataset", "dataset_version", "dataset"),
    ("output.media_set", "media_set_selection", "media"),
    ("output.semantic_index", "vector_index_generation", "index"),
    ("output.ontology", "ontology_mapping", "ontology"),
    ("output.geospatial", "geospatial_series", "geospatial")]

def outputPlane (node : RuntimeNode) : String × String :=
  (outputPlanes.lookup node.descriptorId).getD ("dataset_version", "dataset")

/-- The field of the configuration that names the resource of an output. -/
def resourceFields : List (String × String) :=
  [("output.dataset", "outputDatasetRef"), ("output.media_set", "mediaSetRef"),
    ("output.semantic_index", "indexRef"), ("output.ontology", "mappingRef"),
    ("output.geospatial", "resourceRef")]

def failedOutputRef (node : RuntimeNode) : Mapping :=
  let resourceRef := match resourceFields.lookup node.descriptorId with
    | some field => valueOf node.config field
    | none => .null
  if node.descriptorId = "output.dataset" then [("datasetRef", resourceRef)]
  else if node.descriptorId = "output.media_set" then [("mediaSetRef", resourceRef)]
  else if node.descriptorId = "output.geospatial" then [("resourceRef", resourceRef)]
  else [("requestedResourceRef", resourceRef), ("servingState", .str "CANDIDATE_NOT_COMMITTED"),
    ("servingAssetCreated", .bool false)]

def failedOutputPayload (node : RuntimeNode) (error : Mapping) (disposition : String) : Mapping :=
  [("nodeId", .str node.nodeId), ("artifactKind", .str (outputPlane node).1),
    ("plane", .str (outputPlane node).2), ("status", .str "FAILED"),
    ("commitKind", .str (if isCandidate node then "GOVERNED_CANDIDATE" else "SERVING_ASSET")),
    ("isServing", .bool false), ("ref", .obj (failedOutputRef node)),
    ("error", .obj (("executionDisposition", .str disposition) :: error))]

/-! ### Recording -/

variable {exc : Type} (env : Runtime exc)

/-- The first error of a run stays. -/
def firstError (node : RuntimeNode) (error : Mapping) (s : ExecutionState) : ExecutionState :=
  if s.error = none then { s with error := some error, failedNodeId := some node.nodeId } else s

def skipNode (node : RuntimeNode) (missing : List String) (s : ExecutionState) : ExecutionState :=
  let error := upstreamError node missing
  { s with
    skipped := s.skipped ++ [node.nodeId]
    timeline := s.timeline ++ [.skipped node error]
    outputs := s.outputs ++
      if node.kind = "output" then [failedOutputPayload node error "SKIPPED"] else [] }

def recordFailure (node : RuntimeNode) (error : exc) (s : ExecutionState) : ExecutionState :=
  let payload := env.errorPayload error
  let s := firstError node payload s
  { s with
    timeline := s.timeline ++ [.failed "pipeline.node.failed" node payload]
    outputs := s.outputs ++
      if node.kind = "output" then [failedOutputPayload node payload "FAILED"] else [] }

def recordCommittedReconciliation (node : RuntimeNode) (artifact : RuntimeArtifact)
    (error : Mapping) (event : String) (s : ExecutionState) : ExecutionState :=
  let s := firstError node error s
  { s with
    outputs := s.outputs ++ [committedOutputReconciliationPayload artifact error]
    timeline := s.timeline ++ [.failed event node error] }

/-- The recorded row of an artifact. -/
def rowOf (artifact : RuntimeArtifact) (id : String) : ArtifactRow :=
  ⟨id, artifact.portId, artifact.artifactKind, artifact.isServing⟩

def recordSuccess (node : RuntimeNode) (artifact : RuntimeArtifact) (row : ArtifactRow)
    (s : ExecutionState) : ExecutionState :=
  { s with
    artifacts := s.artifacts.insert node.nodeId artifact
    persisted := s.persisted.insert node.nodeId row
    timeline := s.timeline ++ [.succeeded node row]
    outputs := s.outputs ++
      if node.kind = "output" then [runtimeOutputPayload env.toSerialiser artifact row] else [] }

def isReconcilableCommittedOutput (node : RuntimeNode) (artifact : RuntimeArtifact) : Bool :=
  node.kind = "output" && artifact.status = "COMMITTED" && artifact.isServing

/-! ### Execution -/

def executeArtifactNode (edges : List RuntimeEdge) (node : RuntimeNode) (s : ExecutionState) :
    Checked ExecutionState := do
  let inputs ← inputArtifactsForNode node.nodeId edges s.artifacts
  let _ ← runtimeInputEvidence node edges s.persisted
  let s := { s with dispatched := s.dispatched ++ [(node.nodeId, inputs)] }
  match env.dispatch node inputs with
  | .reconciliationRequired artifact cause =>
    return recordCommittedReconciliation node artifact
      (committedOutputPostCommitError node (env.errorPayload cause))
      "pipeline.node.committed_output_reconciliation_required" s
  | .outcomeUnknown artifact cause =>
    return recordCommittedReconciliation node artifact
      (commitOutcomeUnknownError node (env.errorPayload cause))
      "pipeline.node.output_commit_outcome_unknown" s
  | .raised error => return recordFailure env node error s
  | .artifact artifact =>
    match env.succeed node artifact with
    | .ok id => return recordSuccess env node artifact (rowOf artifact id) s
    | .error error =>
      if isReconcilableCommittedOutput node artifact then
        return recordCommittedReconciliation node artifact
          (committedOutputEvidenceError node (env.errorPayload error))
          "pipeline.node.committed_evidence_reconciliation_required" s
      else return recordFailure env node error s

/-- A policy of a candidate: its artifact kind, plane, port and type, and the field of its
resource. -/
structure CandidatePolicy where
  artifactKind : String
  plane : String
  portId : String
  resourceField : String
  candidateType : String

def candidatePolicies : List (String × CandidatePolicy) :=
  [("output.semantic_index", ⟨"vector_index_generation", "index", "index", "indexRef",
      "semantic_index_generation"⟩),
    ("output.ontology", ⟨"ontology_mapping", "ontology", "mapping", "mappingRef",
      "ontology_mapping"⟩)]

def requireCandidatePolicy (descriptorId : String) : Checked CandidatePolicy :=
  match candidatePolicies.lookup descriptorId with
  | some policy => pure policy
  | none => validationFailed "pipeline governed output candidate descriptor is unsupported"
      [("descriptorId", .str descriptorId)]

def missingResource (node : RuntimeNode) (policy : CandidatePolicy) : Checked CandidateItem :=
  validationFailed "pipeline governed output resource ref is required"
    [("nodeId", .str node.nodeId), ("field", .str policy.resourceField)]

def candidateItem (node : RuntimeNode) : Checked CandidateItem := do
  let policy ← requireCandidatePolicy node.descriptorId
  match valueOf node.config policy.resourceField with
  | .str resourceRef =>
    if Text.isBlank resourceRef then missingResource node policy
    else
      return ⟨node.nodeId, node.descriptorId, node.specVersion, Text.strip resourceRef, node.config,
        policy.artifactKind, policy.plane, policy.portId, policy.candidateType⟩
  | _ => missingResource node policy

def executeCandidate (edges : List RuntimeEdge) (node : RuntimeNode) (s : ExecutionState) :
    Checked ExecutionState := do
  let _ ← runtimeInputEvidence node edges s.persisted
  match candidateItem node with
  | .error error => return recordFailure env node (env.domainError error) s
  | .ok item =>
    let s := { s with submitted := s.submitted ++ [item] }
    match env.commit item with
    | .error error => return recordFailure env node error s
    | .ok result =>
      return { s with
        outputs := s.outputs ++ [result.output]
        timeline := s.timeline ++ [.candidate node result.timelineEvent] }

def executeOrSkip (edges : List RuntimeEdge) (s : ExecutionState) (node : RuntimeNode) :
    Checked ExecutionState := do
  let missing := missingUpstream node edges s.artifacts
  if missing ≠ [] then
    let _ ← availableRuntimeInputEvidence node edges s.persisted
    return skipNode node missing s
  else if isCandidate node then executeCandidate env edges node s
  else executeArtifactNode env edges node s

def hasReconciliationOutput (outputs : List Mapping) : Bool :=
  outputs.any fun output =>
    valueOf output "status" = .str "COMMITTED" ∨
      valueOf output "status" = .str "COMMIT_OUTCOME_UNKNOWN"

def terminalTimeline (s : ExecutionState) : TimelineEvent :=
  let event := if s.error = none then "pipeline.graph_v2.succeeded"
    else if hasReconciliationOutput s.outputs then "pipeline.graph_v2.partial"
    else "pipeline.graph_v2.failed"
  .terminal event s.outputs.length
    (s.outputs.countP fun output => valueOf output "status" = .str "COMMITTED") s.failedNodeId
    s.skipped

def initialState (artifacts : Dict String RuntimeArtifact) (persisted : Dict String ArtifactRow) :
    ExecutionState :=
  ⟨artifacts, persisted, [], [.started], none, none, [], [], []⟩

def execute (nodes : List RuntimeNode) (edges : List RuntimeEdge)
    (initialArtifacts : Dict String RuntimeArtifact) (initialPersisted : Dict String ArtifactRow) :
    Checked ExecutionState := do
  let s ← nodes.foldlM (executeOrSkip env edges) (initialState initialArtifacts initialPersisted)
  return { s with timeline := s.timeline ++ [terminalTimeline s] }

end FoundryLite.Pipeline.RuntimeExecutor
