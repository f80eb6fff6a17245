import FoundryLite.Pipeline.RuntimeExecutor

/-!
# What becomes of each node of a run

The outcome of a node is a function of the artifacts of its upstream nodes (`outcomeOf`), and the
executor computes it from the artifacts there are when it comes to the node. In a plan whose edges
only lead forward these are the artifacts there are at the end, so the final state says of itself
what became of every node: that is the invariant of the run (`Inv`), and the law (`StatusLaw`) is
what it says after the last node.

A candidate never has an artifact, so a plan must not read one; outputs have no outgoing edges in a
validated graph.

## Main results

* `executeOrSkip_eq`: one turn of the loop records the outcome of the node.
* `execute_spec`: a run ends, and its final state obeys the law.
-/

namespace FoundryLite.Pipeline.RuntimeExecutor

/-! ### Outcomes -/

inductive NodeStatus where
  | succeeded
  | failed
  | skipped
  deriving DecidableEq

inductive NodeOutcome where
  | skipped (missing : List String)
  | succeeded (artifact : RuntimeArtifact) (row : ArtifactRow)
  | proposed (result : CandidateResult)
  | failed (error : Mapping)
  /-- Failed, with an output that is or may be committed. -/
  | unreconciled (artifact : RuntimeArtifact) (error : Mapping) (event : String)

namespace NodeOutcome

def status : NodeOutcome → NodeStatus
  | skipped _ => .skipped
  | succeeded _ _ | proposed _ => .succeeded
  | failed _ | unreconciled _ _ _ => .failed

/-- The artifact of a node, with its row. -/
def made : NodeOutcome → Option (RuntimeArtifact × ArtifactRow)
  | succeeded artifact row => some (artifact, row)
  | _ => none

/-- The error of a node that failed. -/
def error : NodeOutcome → Option Mapping
  | failed error => some error
  | unreconciled _ error _ => some error
  | _ => none

theorem isSome_error_iff (outcome : NodeOutcome) :
    outcome.error.isSome = true ↔ outcome.status = .failed := by
  cases outcome <;> simp [error, status]

end NodeOutcome

variable {exc : Type} (env : Runtime exc)

def artifactOutcome (node : RuntimeNode) (inputs : RuntimeInputs) : NodeOutcome :=
  match env.dispatch node inputs with
  | .reconciliationRequired artifact cause => .unreconciled artifact
      (committedOutputPostCommitError node (env.errorPayload cause))
      "pipeline.node.committed_output_reconciliation_required"
  | .outcomeUnknown artifact cause => .unreconciled artifact
      (commitOutcomeUnknownError node (env.errorPayload cause))
      "pipeline.node.output_commit_outcome_unknown"
  | .raised error => .failed (env.errorPayload error)
  | .artifact artifact =>
    match env.succeed node artifact with
    | .ok id => .succeeded artifact (rowOf artifact id)
    | .error error =>
      if isReconcilableCommittedOutput node artifact then
        .unreconciled artifact (committedOutputEvidenceError node (env.errorPayload error))
          "pipeline.node.committed_evidence_reconciliation_required"
      else .failed (env.errorPayload error)

def candidateOutcome (node : RuntimeNode) : NodeOutcome :=
  match candidateItem node with
  | .error error => .failed (env.errorPayload (env.domainError error))
  | .ok item =>
    match env.commit item with
    | .error error => .failed (env.errorPayload error)
    | .ok result => .proposed result

/-- What an artifact node is given, where its upstream artifacts fit. -/
def inputsOf (edges : List RuntimeEdge) (artifacts : Dict String RuntimeArtifact)
    (node : RuntimeNode) : RuntimeInputs :=
  match inputArtifactsForNode node.nodeId edges artifacts with
  | .ok inputs => inputs
  | .error _ => ∅

def outcomeOf (edges : List RuntimeEdge) (artifacts : Dict String RuntimeArtifact)
    (node : RuntimeNode) : NodeOutcome :=
  if missingUpstream node edges artifacts ≠ [] then
    .skipped (missingUpstream node edges artifacts)
  else if isCandidate node then candidateOutcome env node
  else artifactOutcome env node (inputsOf edges artifacts node)

/-- The output payloads of a node. -/
def payloads (node : RuntimeNode) : NodeOutcome → List Mapping
  | .skipped missing => if node.kind = "output"
      then [failedOutputPayload node (upstreamError node missing) "SKIPPED"] else []
  | .succeeded artifact row => if node.kind = "output"
      then [runtimeOutputPayload env.toSerialiser artifact row] else []
  | .proposed result => [result.output]
  | .failed error => if node.kind = "output" then [failedOutputPayload node error "FAILED"] else []
  | .unreconciled artifact error _ => [committedOutputReconciliationPayload artifact error]

/-- The entry of a node in the timeline. -/
def eventOf (node : RuntimeNode) : NodeOutcome → TimelineEvent
  | .skipped missing => .skipped node (upstreamError node missing)
  | .succeeded _ row => .succeeded node row
  | .proposed result => .candidate node result.timelineEvent
  | .failed error => .failed "pipeline.node.failed" node error
  | .unreconciled _ error event => .failed event node error

/-- What the dispatcher is asked about a node. -/
def callsOf (edges : List RuntimeEdge) (artifacts : Dict String RuntimeArtifact)
    (node : RuntimeNode) : List (String × RuntimeInputs) :=
  if missingUpstream node edges artifacts ≠ [] ∨ isCandidate node = true then []
  else [(node.nodeId, inputsOf edges artifacts node)]

/-- What the committer is asked about a node. -/
def itemsOf (edges : List RuntimeEdge) (artifacts : Dict String RuntimeArtifact)
    (node : RuntimeNode) : List CandidateItem :=
  if missingUpstream node edges artifacts ≠ [] ∨ isCandidate node = false then []
  else match candidateItem node with
    | .ok item => [item]
    | .error _ => []

/-- The state with the outcome of a node recorded. -/
def record (edges : List RuntimeEdge) (s : ExecutionState) (node : RuntimeNode) : ExecutionState :=
  let outcome := outcomeOf env edges s.artifacts node
  { artifacts := match outcome.made with
      | some (artifact, _) => s.artifacts.insert node.nodeId artifact
      | none => s.artifacts
    persisted := match outcome.made with
      | some (_, row) => s.persisted.insert node.nodeId row
      | none => s.persisted
    outputs := s.outputs ++ payloads env node outcome
    timeline := s.timeline ++ [eventOf node outcome]
    error := s.error.or outcome.error
    failedNodeId := if s.error = none ∧ outcome.error ≠ none then some node.nodeId else s.failedNodeId
    skipped := s.skipped ++ if outcome.status = .skipped then [node.nodeId] else []
    dispatched := s.dispatched ++ callsOf edges s.artifacts node
    submitted := s.submitted ++ itemsOf edges s.artifacts node }

/-! ### Upstream -/

variable {env} {edges : List RuntimeEdge} {node : RuntimeNode} {s : ExecutionState}

theorem mem_incomingEdges {nodeId : String} {edge : RuntimeEdge} :
    edge ∈ incomingEdges nodeId edges ↔ edge ∈ edges ∧ edge.targetNodeId = nodeId := by
  rw [incomingEdges, (List.perm_insertionSort _ _).mem_iff, List.mem_filter, decide_eq_true_iff]

theorem missingUpstream_eq_nil_iff {artifacts : Dict String RuntimeArtifact} :
    missingUpstream node edges artifacts = [] ↔ ∀ edge ∈ edges, edge.targetNodeId = node.nodeId →
      (artifacts.get? edge.sourceNodeId).isSome := by
  rw [missingUpstream, List.filter_eq_nil_iff]
  simp only [Dict.mem_sortedSet, List.mem_map, List.mem_filter, decide_eq_true_eq]
  constructor
  · intro h edge hedge htarget
    simpa [Option.isSome_iff_ne_none] using h edge.sourceNodeId ⟨edge, ⟨hedge, htarget⟩, rfl⟩
  · rintro h _ ⟨edge, ⟨hedge, htarget⟩, rfl⟩
    simpa [Option.isSome_iff_ne_none] using h edge hedge htarget

/-- The artifacts there are come out of the ports that the edges read. -/
def PortsFit (edges : List RuntimeEdge) (artifacts : Dict String RuntimeArtifact) : Prop :=
  ∀ edge ∈ edges, ∀ artifact, artifacts.get? edge.sourceNodeId = some artifact →
    artifact.portId = edge.sourcePortId

/-- Every artifact has its row, with the same port. -/
def RowsFit (artifacts : Dict String RuntimeArtifact) (persisted : Dict String ArtifactRow) : Prop :=
  ∀ id, (persisted.get? id).map ArtifactRow.portId = (artifacts.get? id).map RuntimeArtifact.portId

theorem inputArtifactsForNode_eq_ok {artifacts : Dict String RuntimeArtifact}
    (hports : PortsFit edges artifacts) (hmissing : missingUpstream node edges artifacts = []) :
    inputArtifactsForNode node.nodeId edges artifacts = .ok (inputsOf edges artifacts node) := by
  have hready : ∀ edge ∈ incomingEdges node.nodeId edges, ∃ artifact,
      inputArtifact node.nodeId artifacts edge = .ok artifact := by
    intro edge hedge
    obtain ⟨hmem, htarget⟩ := mem_incomingEdges.mp hedge
    obtain ⟨artifact, hartifact⟩ := Option.isSome_iff_exists.mp
      (missingUpstream_eq_nil_iff.mp hmissing edge hmem htarget)
    refine ⟨artifact, ?_⟩
    rw [inputArtifact, hartifact]
    exact if_neg (not_not.mpr (hports edge hmem artifact hartifact))
  have hfold : ∀ (incoming : List RuntimeEdge) (grouped : RuntimeInputs),
      (∀ edge ∈ incoming, ∃ artifact, inputArtifact node.nodeId artifacts edge = .ok artifact) →
      ∃ inputs, incoming.foldlM (fun grouped edge => do
        let artifact ← inputArtifact node.nodeId artifacts edge
        return Dict.insert grouped edge.targetPortId
          ((grouped.get? edge.targetPortId).getD [] ++ [artifact])) grouped = .ok inputs := by
    intro incoming
    induction incoming with
    | nil => exact fun grouped _ => ⟨grouped, rfl⟩
    | cons edge incoming ih =>
      intro grouped hall
      obtain ⟨⟨artifact, hartifact⟩, hrest⟩ := List.forall_mem_cons.mp hall
      obtain ⟨inputs, hinputs⟩ := ih (grouped.insert edge.targetPortId
        ((grouped.get? edge.targetPortId).getD [] ++ [artifact])) hrest
      refine ⟨inputs, ?_⟩
      rw [List.foldlM_cons, hartifact]
      exact hinputs
  obtain ⟨inputs, hinputs⟩ := hfold _ ∅ hready
  have hok : inputArtifactsForNode node.nodeId edges artifacts = .ok inputs := hinputs
  rw [inputsOf, hok]

theorem inputEvidence_eq_ok {artifacts : Dict String RuntimeArtifact}
    {persisted : Dict String ArtifactRow} (hports : PortsFit edges artifacts)
    (hrows : RowsFit artifacts persisted) {edge : RuntimeEdge} (hedge : edge ∈ edges)
    (hrow : (persisted.get? edge.sourceNodeId).isSome) :
    ∃ evidence, inputEvidence persisted edge = .ok evidence := by
  obtain ⟨row, hget⟩ := Option.isSome_iff_exists.mp hrow
  have hport := hrows edge.sourceNodeId
  rw [hget, Option.map_some] at hport
  obtain ⟨artifact, hartifact, heq⟩ := Option.map_eq_some_iff.mp hport.symm
  refine ⟨(edge.targetPortId, row), ?_⟩
  rw [inputEvidence, hget]
  exact if_neg (not_not.mpr (heq.symm.trans (hports edge hedge artifact hartifact)))

theorem RowsFit.isSome_iff {artifacts : Dict String RuntimeArtifact}
    {persisted : Dict String ArtifactRow} (hrows : RowsFit artifacts persisted) (id : String) :
    (persisted.get? id).isSome = (artifacts.get? id).isSome := by
  have hport := congrArg Option.isSome (hrows id)
  rwa [Option.isSome_map, Option.isSome_map] at hport

theorem runtimeInputEvidence_eq_ok (hports : PortsFit edges s.artifacts)
    (hrows : RowsFit s.artifacts s.persisted)
    (hmissing : missingUpstream node edges s.artifacts = []) :
    ∃ evidence, runtimeInputEvidence node edges s.persisted = .ok evidence := by
  refine List.exists_mapM_eq_ok fun edge hedge => ?_
  obtain ⟨hmem, htarget⟩ := mem_incomingEdges.mp hedge
  refine inputEvidence_eq_ok hports hrows hmem ?_
  rw [hrows.isSome_iff]
  exact missingUpstream_eq_nil_iff.mp hmissing edge hmem htarget

theorem availableRuntimeInputEvidence_eq_ok (hports : PortsFit edges s.artifacts)
    (hrows : RowsFit s.artifacts s.persisted) :
    ∃ evidence, availableRuntimeInputEvidence node edges s.persisted = .ok evidence := by
  refine List.exists_mapM_eq_ok fun edge hedge => ?_
  obtain ⟨hmem, hrow⟩ := List.mem_filter.mp hedge
  exact inputEvidence_eq_ok hports hrows (mem_incomingEdges.mp hmem).1 hrow

/-! ### One turn -/

theorem record_failure {failure : exc} (houtcome : outcomeOf env edges s.artifacts node =
      .failed (env.errorPayload failure)) (dispatched : List (String × RuntimeInputs))
    (submitted : List CandidateItem) (hcalls : callsOf edges s.artifacts node = dispatched)
    (hitems : itemsOf edges s.artifacts node = submitted) :
    recordFailure env node failure { s with
      dispatched := s.dispatched ++ dispatched, submitted := s.submitted ++ submitted } =
      record env edges s node := by
  rw [record, houtcome, hcalls, hitems, recordFailure, firstError]
  cases herror : s.error <;>
    simp [NodeOutcome.made, NodeOutcome.error, NodeOutcome.status, payloads, eventOf]

theorem record_unreconciled {artifact : RuntimeArtifact} {error : Mapping} {event : String}
    (houtcome : outcomeOf env edges s.artifacts node = .unreconciled artifact error event)
    (dispatched : List (String × RuntimeInputs))
    (hcalls : callsOf edges s.artifacts node = dispatched)
    (hitems : itemsOf edges s.artifacts node = []) :
    recordCommittedReconciliation node artifact error event { s with
      dispatched := s.dispatched ++ dispatched } = record env edges s node := by
  rw [record, houtcome, hcalls, hitems, recordCommittedReconciliation, firstError]
  cases herror : s.error <;>
    simp [NodeOutcome.made, NodeOutcome.error, NodeOutcome.status, payloads, eventOf]

theorem executeArtifactNode_eq (hports : PortsFit edges s.artifacts)
    (hrows : RowsFit s.artifacts s.persisted)
    (hmissing : missingUpstream node edges s.artifacts = []) (hkind : isCandidate node = false) :
    executeArtifactNode env edges node s = .ok (record env edges s node) := by
  obtain ⟨evidence, hevidence⟩ := runtimeInputEvidence_eq_ok hports hrows hmissing
  have houtcome : outcomeOf env edges s.artifacts node =
      artifactOutcome env node (inputsOf edges s.artifacts node) := by
    rw [outcomeOf, if_neg (not_not.mpr hmissing), if_neg (by simp [hkind])]
  have hcalls : callsOf edges s.artifacts node =
      [(node.nodeId, inputsOf edges s.artifacts node)] := by
    rw [callsOf, if_neg (by simp [hmissing, hkind])]
  have hitems : itemsOf edges s.artifacts node = [] := by
    rw [itemsOf, if_pos (.inr hkind)]
  rw [executeArtifactNode, inputArtifactsForNode_eq_ok hports hmissing, hevidence]
  rw [artifactOutcome] at houtcome
  change (match env.dispatch node (inputsOf edges s.artifacts node) with
    | .reconciliationRequired artifact cause => _
    | .outcomeUnknown artifact cause => _
    | .raised error => _
    | .artifact artifact => _) = _
  cases hdispatch : env.dispatch node (inputsOf edges s.artifacts node) with
  | reconciliationRequired artifact cause =>
    rw [hdispatch] at houtcome
    exact congrArg Except.ok (record_unreconciled houtcome _ hcalls hitems)
  | outcomeUnknown artifact cause =>
    rw [hdispatch] at houtcome
    exact congrArg Except.ok (record_unreconciled houtcome _ hcalls hitems)
  | raised error =>
    rw [hdispatch] at houtcome
    refine congrArg Except.ok ?_
    rw [← record_failure houtcome _ [] hcalls hitems, List.append_nil]
  | artifact artifact =>
    rw [hdispatch] at houtcome
    dsimp only at houtcome ⊢
    cases hsucceed : env.succeed node artifact with
    | ok id =>
      rw [hsucceed] at houtcome
      refine congrArg Except.ok ?_
      rw [record, houtcome, hcalls, hitems, recordSuccess]
      simp [NodeOutcome.made, NodeOutcome.error, NodeOutcome.status, payloads, eventOf]
    | error error =>
      rw [hsucceed] at houtcome
      dsimp only at houtcome ⊢
      by_cases hcommitted : isReconcilableCommittedOutput node artifact = true
      · rw [if_pos hcommitted] at houtcome ⊢
        exact congrArg Except.ok (record_unreconciled houtcome _ hcalls hitems)
      · rw [if_neg hcommitted] at houtcome ⊢
        refine congrArg Except.ok ?_
        rw [← record_failure houtcome _ [] hcalls hitems, List.append_nil]

theorem executeCandidate_eq (hports : PortsFit edges s.artifacts)
    (hrows : RowsFit s.artifacts s.persisted)
    (hmissing : missingUpstream node edges s.artifacts = []) (hkind : isCandidate node = true) :
    executeCandidate env edges node s = .ok (record env edges s node) := by
  obtain ⟨evidence, hevidence⟩ := runtimeInputEvidence_eq_ok hports hrows hmissing
  have houtcome : outcomeOf env edges s.artifacts node = candidateOutcome env node := by
    rw [outcomeOf, if_neg (not_not.mpr hmissing), if_pos hkind]
  have hcalls : callsOf edges s.artifacts node = [] := by
    rw [callsOf, if_pos (.inr hkind)]
  rw [candidateOutcome] at houtcome
  rw [executeCandidate, hevidence]
  change (match candidateItem node with
    | .error error => _
    | .ok item => _) = _
  cases hitem : candidateItem node with
  | error error =>
    have hitems : itemsOf edges s.artifacts node = [] := by
      rw [itemsOf, if_neg (by simp [hmissing, hkind]), hitem]
    rw [hitem] at houtcome
    refine congrArg Except.ok ?_
    rw [← record_failure houtcome [] [] hcalls hitems, List.append_nil, List.append_nil]
  | ok item =>
    have hitems : itemsOf edges s.artifacts node = [item] := by
      rw [itemsOf, if_neg (by simp [hmissing, hkind]), hitem]
    rw [hitem] at houtcome
    dsimp only at houtcome ⊢
    cases hcommit : env.commit item with
    | error error =>
      rw [hcommit] at houtcome
      refine congrArg Except.ok ?_
      rw [← record_failure houtcome [] _ hcalls hitems, List.append_nil]
    | ok result =>
      rw [hcommit] at houtcome
      refine congrArg Except.ok ?_
      rw [record, houtcome, hcalls, hitems]
      simp [NodeOutcome.made, NodeOutcome.error, NodeOutcome.status, payloads, eventOf]

/-- **One turn of the loop** records the outcome of the node. -/
theorem executeOrSkip_eq (hports : PortsFit edges s.artifacts)
    (hrows : RowsFit s.artifacts s.persisted) :
    executeOrSkip env edges s node = .ok (record env edges s node) := by
  rw [executeOrSkip]
  by_cases hmissing : missingUpstream node edges s.artifacts = []
  · rw [if_neg (not_not.mpr hmissing)]
    by_cases hkind : isCandidate node = true
    · rw [if_pos hkind]
      exact executeCandidate_eq hports hrows hmissing hkind
    · rw [if_neg hkind]
      exact executeArtifactNode_eq hports hrows hmissing (Bool.not_eq_true _ ▸ hkind)
  · obtain ⟨evidence, hevidence⟩ := availableRuntimeInputEvidence_eq_ok hports hrows
    have houtcome : outcomeOf env edges s.artifacts node =
        .skipped (missingUpstream node edges s.artifacts) := by rw [outcomeOf, if_pos hmissing]
    have hcalls : callsOf edges s.artifacts node = [] := by rw [callsOf, if_pos (.inl hmissing)]
    have hitems : itemsOf edges s.artifacts node = [] := by rw [itemsOf, if_pos (.inl hmissing)]
    rw [if_pos hmissing, hevidence]
    refine congrArg Except.ok ?_
    rw [record, houtcome, hcalls, hitems, skipNode]
    simp [NodeOutcome.made, NodeOutcome.error, NodeOutcome.status, payloads, eventOf]

/-! ### The run -/

/-- The outcome depends on the artifacts of the upstream nodes only. -/
def Agree (edges : List RuntimeEdge) (node : RuntimeNode)
    (artifacts artifacts' : Dict String RuntimeArtifact) : Prop :=
  ∀ edge ∈ edges, edge.targetNodeId = node.nodeId →
    artifacts.get? edge.sourceNodeId = artifacts'.get? edge.sourceNodeId

theorem foldlM_congr_of_mem {α β ε : Type} {f g : β → α → Except ε β} {xs : List α}
    (h : ∀ b, ∀ x ∈ xs, f b x = g b x) (b : β) : xs.foldlM f b = xs.foldlM g b := by
  induction xs generalizing b with
  | nil => rfl
  | cons x xs ih =>
    rw [List.foldlM_cons, List.foldlM_cons, h b x List.mem_cons_self]
    exact congrArg _ (funext fun b' => ih (fun c y hy => h c y (List.mem_cons_of_mem _ hy)) b')

section Agree

variable {artifacts artifacts' : Dict String RuntimeArtifact}

theorem Agree.missingUpstream (h : Agree edges node artifacts artifacts') :
    missingUpstream node edges artifacts = missingUpstream node edges artifacts' := by
  refine List.filter_congr fun source hsource => ?_
  obtain ⟨edge, hedge, rfl⟩ := List.mem_map.mp (Dict.mem_sortedSet.mp hsource)
  obtain ⟨hmem, htarget⟩ := List.mem_filter.mp hedge
  rw [h edge hmem (of_decide_eq_true htarget)]

theorem Agree.inputsOf (h : Agree edges node artifacts artifacts') :
    inputsOf edges artifacts node = inputsOf edges artifacts' node := by
  have heq : inputArtifactsForNode node.nodeId edges artifacts =
      inputArtifactsForNode node.nodeId edges artifacts' := by
    refine foldlM_congr_of_mem (fun grouped edge hedge => ?_) ∅
    obtain ⟨hmem, htarget⟩ := mem_incomingEdges.mp hedge
    rw [inputArtifact, inputArtifact, h edge hmem htarget]
  rw [RuntimeExecutor.inputsOf, RuntimeExecutor.inputsOf, heq]

theorem Agree.outcomeOf (h : Agree edges node artifacts artifacts') :
    outcomeOf env edges artifacts node = outcomeOf env edges artifacts' node := by
  rw [RuntimeExecutor.outcomeOf, RuntimeExecutor.outcomeOf, h.missingUpstream, h.inputsOf]

theorem Agree.callsOf (h : Agree edges node artifacts artifacts') :
    callsOf edges artifacts node = callsOf edges artifacts' node := by
  rw [RuntimeExecutor.callsOf, RuntimeExecutor.callsOf, h.missingUpstream, h.inputsOf]

theorem Agree.itemsOf (h : Agree edges node artifacts artifacts') :
    itemsOf edges artifacts node = itemsOf edges artifacts' node := by
  rw [RuntimeExecutor.itemsOf, RuntimeExecutor.itemsOf, h.missingUpstream]

end Agree

variable {nodes : List RuntimeNode} {initialArtifacts : Dict String RuntimeArtifact}
  {initialPersisted : Dict String ArtifactRow}

/-- A plan in topological order, with the artifacts a run of it starts from. -/
structure IsPlan (env : Runtime exc) (nodes : List RuntimeNode) (edges : List RuntimeEdge)
    (initialArtifacts : Dict String RuntimeArtifact)
    (initialPersisted : Dict String ArtifactRow) : Prop where
  nodup : (nodes.map RuntimeNode.nodeId).Nodup
  /-- No edge leads to a node from itself or from a later one. -/
  ordered : ∀ before node after, nodes = before ++ node :: after → ∀ edge ∈ edges,
    edge.targetNodeId = node.nodeId →
      edge.sourceNodeId ∉ (node :: after).map RuntimeNode.nodeId
  /-- A candidate is an output, and no edge leads out of it. -/
  terminal : ∀ node ∈ nodes, isCandidate node = true →
    node.kind = "output" ∧ ∀ edge ∈ edges, edge.sourceNodeId ≠ node.nodeId
  /-- The dispatcher makes the artifact of the port that the edges read. -/
  ports : ∀ node ∈ nodes, ∀ inputs artifact, env.dispatch node inputs = .artifact artifact →
    ∀ edge ∈ edges, edge.sourceNodeId = node.nodeId → artifact.portId = edge.sourcePortId
  fresh : ∀ node ∈ nodes, initialArtifacts.get? node.nodeId = none
  initialPorts : PortsFit edges initialArtifacts
  initialRows : RowsFit initialArtifacts initialPersisted

/-- The nodes that failed, with their errors. -/
def failuresOf (env : Runtime exc) (edges : List RuntimeEdge)
    (artifacts : Dict String RuntimeArtifact) (nodes : List RuntimeNode) :
    List (String × Mapping) :=
  nodes.filterMap fun node =>
    (outcomeOf env edges artifacts node).error.map fun error => (node.nodeId, error)

/-- **What the state says of the nodes so far**: what became of each of them. -/
structure Inv (env : Runtime exc) (edges : List RuntimeEdge)
    (initialArtifacts : Dict String RuntimeArtifact) (done : List RuntimeNode)
    (s : ExecutionState) : Prop where
  made : ∀ node ∈ done, s.artifacts.get? node.nodeId =
    (outcomeOf env edges s.artifacts node).made.map Prod.fst
  others : ∀ id, id ∉ done.map RuntimeNode.nodeId → s.artifacts.get? id = initialArtifacts.get? id
  ports : PortsFit edges s.artifacts
  rows : RowsFit s.artifacts s.persisted
  outputs : s.outputs = done.flatMap fun node =>
    payloads env node (outcomeOf env edges s.artifacts node)
  timeline : s.timeline = .started :: done.map fun node =>
    eventOf node (outcomeOf env edges s.artifacts node)
  error : s.error = (failuresOf env edges s.artifacts done).head?.map Prod.snd
  failed : s.failedNodeId = (failuresOf env edges s.artifacts done).head?.map Prod.fst
  skipped : s.skipped = (done.filter fun node =>
    (outcomeOf env edges s.artifacts node).status = .skipped).map RuntimeNode.nodeId
  dispatched : s.dispatched = done.flatMap (callsOf edges s.artifacts)
  submitted : s.submitted = done.flatMap (itemsOf edges s.artifacts)

theorem made_artifactOutcome {inputs : RuntimeInputs} {artifact : RuntimeArtifact}
    {row : ArtifactRow} (h : (artifactOutcome env node inputs).made = some (artifact, row)) :
    env.dispatch node inputs = .artifact artifact ∧ row.portId = artifact.portId := by
  rw [artifactOutcome] at h
  cases hdispatch : env.dispatch node inputs with
  | artifact artifact' =>
    rw [hdispatch] at h
    dsimp only at h
    cases hsucceed : env.succeed node artifact' with
    | ok id =>
      rw [hsucceed] at h
      obtain ⟨rfl, rfl⟩ := Prod.mk.inj (Option.some.inj h)
      exact ⟨rfl, rfl⟩
    | error error =>
      rw [hsucceed] at h
      dsimp only at h
      split_ifs at h <;> exact absurd h (by simp [NodeOutcome.made])
  | _ =>
    rw [hdispatch] at h
    exact absurd h (by simp [NodeOutcome.made])

theorem made_candidateOutcome : (candidateOutcome env node).made = none := by
  rw [candidateOutcome]
  cases candidateItem node with
  | error error => rfl
  | ok item => cases hcommit : env.commit item <;> simp [hcommit, NodeOutcome.made]

/-- The artifact of a node was made by the dispatcher from its inputs. -/
theorem made_outcomeOf {artifacts : Dict String RuntimeArtifact} {artifact : RuntimeArtifact}
    {row : ArtifactRow} (h : (outcomeOf env edges artifacts node).made = some (artifact, row)) :
    missingUpstream node edges artifacts = [] ∧ isCandidate node = false ∧
      env.dispatch node (inputsOf edges artifacts node) = .artifact artifact ∧
      row.portId = artifact.portId := by
  rw [outcomeOf] at h
  split_ifs at h with hmissing hkind
  · exact absurd h (by simp [NodeOutcome.made])
  · rw [made_candidateOutcome] at h
    cases h
  · exact ⟨not_not.mp hmissing, Bool.not_eq_true _ ▸ hkind, made_artifactOutcome h⟩

theorem inv_initial (h : IsPlan env nodes edges initialArtifacts initialPersisted) :
    Inv env edges initialArtifacts [] (initialState initialArtifacts initialPersisted) where
  made _ hmem := absurd hmem List.not_mem_nil
  others _ _ := rfl
  ports := h.initialPorts
  rows := h.initialRows
  outputs := rfl
  timeline := rfl
  error := rfl
  failed := rfl
  skipped := rfl
  dispatched := rfl
  submitted := rfl

theorem get?_record (id : String) : (record env edges s node).artifacts.get? id =
    if id = node.nodeId then ((outcomeOf env edges s.artifacts node).made.map Prod.fst).or
      (s.artifacts.get? id) else s.artifacts.get? id := by
  rw [record]
  cases (outcomeOf env edges s.artifacts node).made with
  | none => simp
  | some made =>
    simp only [Dict.get?_insert, Option.map_some, Option.some_or]

theorem get?_record_persisted (id : String) : (record env edges s node).persisted.get? id =
    if id = node.nodeId then ((outcomeOf env edges s.artifacts node).made.map Prod.snd).or
      (s.persisted.get? id) else s.persisted.get? id := by
  rw [record]
  cases (outcomeOf env edges s.artifacts node).made with
  | none => simp
  | some made =>
    simp only [Dict.get?_insert, Option.map_some, Option.some_or]

/-- A node that is done has no edge from the node that is next. -/
theorem IsPlan.source_ne (h : IsPlan env nodes edges initialArtifacts initialPersisted)
    {done after : List RuntimeNode} (hnodes : nodes = done ++ node :: after) :
    ∀ other ∈ done ++ [node], ∀ edge ∈ edges, edge.targetNodeId = other.nodeId →
      edge.sourceNodeId ≠ node.nodeId := by
  intro other hother edge hedge htarget heq
  rcases List.mem_append.mp hother with hdone | hself
  · obtain ⟨before, between, rfl⟩ := List.append_of_mem hdone
    have hlater := h.ordered before other (between ++ node :: after) (by simpa using hnodes) edge
      hedge htarget
    exact hlater (by simp [heq])
  · rw [List.mem_singleton] at hself
    subst hself
    exact h.ordered done other after hnodes edge hedge htarget (by simp [heq])

/-- **One more node is done.** -/
theorem Inv.record (h : IsPlan env nodes edges initialArtifacts initialPersisted)
    {done after : List RuntimeNode} (hnodes : nodes = done ++ node :: after)
    (hinv : Inv env edges initialArtifacts done s) :
    Inv env edges initialArtifacts (done ++ [node]) (record env edges s node) := by
  have hmem : node ∈ nodes := hnodes ▸ List.mem_append_right _ List.mem_cons_self
  have hnew : node.nodeId ∉ done.map RuntimeNode.nodeId := by
    have hnodup := h.nodup
    rw [hnodes, List.map_append, List.nodup_append] at hnodup
    exact fun hdone => hnodup.2.2 _ hdone _ (by simp) rfl
  have hnone : s.artifacts.get? node.nodeId = none := (hinv.others _ hnew).trans (h.fresh node hmem)
  have hagree : ∀ other ∈ done ++ [node],
      Agree edges other s.artifacts (RuntimeExecutor.record env edges s node).artifacts :=
    fun other hother edge hedge htarget => by
      rw [get?_record, if_neg (h.source_ne hnodes other hother edge hedge htarget)]
  have hsame : ∀ other ∈ done ++ [node], outcomeOf env edges s.artifacts other =
      outcomeOf env edges (RuntimeExecutor.record env edges s node).artifacts other :=
    fun other hother => (hagree other hother).outcomeOf
  have hdone : ∀ other ∈ done, other ∈ done ++ [node] := fun other => List.mem_append_left _
  have hself : node ∈ done ++ [node] := List.mem_append_right _ (List.mem_singleton_self _)
  have hmade : (RuntimeExecutor.record env edges s node).artifacts.get? node.nodeId =
      (outcomeOf env edges s.artifacts node).made.map Prod.fst := by
    rw [get?_record, if_pos rfl, hnone, Option.or_none]
  have hfailures : failuresOf env edges (RuntimeExecutor.record env edges s node).artifacts
      (done ++ [node]) = failuresOf env edges s.artifacts done ++
        ((outcomeOf env edges s.artifacts node).error.map fun error =>
          (node.nodeId, error)).toList := by
    rw [failuresOf, failuresOf, List.filterMap_append]
    refine congrArg₂ (· ++ ·) (List.filterMap_congr fun other hother => ?_) ?_
    · rw [hsame other (hdone other hother)]
    · rw [List.filterMap_cons, ← hsame node hself]
      cases (outcomeOf env edges s.artifacts node).error <;> rfl
  refine ⟨fun other hother => ?_, fun id hid => ?_, fun edge hedge artifact hartifact => ?_,
    fun id => ?_, ?_, ?_, ?_, ?_, ?_, ?_, ?_⟩
  · rw [← hsame other hother]
    rcases List.mem_append.mp hother with hold | hlast
    · have hne : other.nodeId ≠ node.nodeId := fun heq =>
        hnew (heq ▸ List.mem_map_of_mem hold)
      rw [get?_record, if_neg hne, hinv.made other hold]
    · rw [List.mem_singleton.mp hlast, hmade]
  · rw [List.map_append, List.mem_append, not_or] at hid
    rw [get?_record, if_neg (by simpa using hid.2), hinv.others id hid.1]
  · by_cases hsource : edge.sourceNodeId = node.nodeId
    · rw [hsource, hmade] at hartifact
      obtain ⟨⟨artifact', row⟩, hpair, rfl⟩ := Option.map_eq_some_iff.mp hartifact
      obtain ⟨-, -, hdispatch, -⟩ := made_outcomeOf hpair
      exact h.ports node hmem _ _ hdispatch edge hedge hsource
    · rw [get?_record, if_neg hsource] at hartifact
      exact hinv.ports edge hedge artifact hartifact
  · rw [get?_record, get?_record_persisted]
    by_cases hid : id = node.nodeId
    · subst hid
      rw [if_pos rfl, if_pos rfl, hnone, Option.or_none]
      have hrow : s.persisted.get? node.nodeId = none := by
        have hsome := hinv.rows.isSome_iff node.nodeId
        rw [hnone] at hsome
        simpa using hsome
      rw [hrow, Option.or_none]
      cases hmadeRow : (outcomeOf env edges s.artifacts node).made with
      | none => rfl
      | some made => exact congrArg some (made_outcomeOf hmadeRow).2.2.2
    · rw [if_neg hid, if_neg hid]
      exact hinv.rows id
  · rw [List.flatMap_append, List.flatMap_singleton, ← hsame node hself]
    change s.outputs ++ _ = _
    rw [hinv.outputs]
    refine congrArg (· ++ _) (List.flatMap_congr fun other hother => ?_)
    rw [hsame other (hdone other hother)]
  · rw [List.map_append, List.map_singleton, ← hsame node hself]
    change s.timeline ++ _ = _
    rw [hinv.timeline, List.cons_append]
    refine congrArg (fun events => TimelineEvent.started :: (events ++ _))
      (List.map_congr_left fun other hother => ?_)
    rw [hsame other (hdone other hother)]
  · rw [hfailures, List.head?_append]
    change s.error.or _ = _
    rw [hinv.error]
    cases (failuresOf env edges s.artifacts done).head? with
    | some failure => rfl
    | none => cases (outcomeOf env edges s.artifacts node).error <;> rfl
  · rw [hfailures, List.head?_append]
    change (if s.error = none ∧ _ then _ else s.failedNodeId) = _
    rw [hinv.error, hinv.failed]
    cases (failuresOf env edges s.artifacts done).head? with
    | some failure => simp
    | none => cases (outcomeOf env edges s.artifacts node).error <;> simp
  · rw [List.filter_append, List.map_append]
    change s.skipped ++ _ = _
    rw [hinv.skipped]
    refine congrArg₂ (· ++ ·) (congrArg _ (List.filter_congr fun other hother => ?_)) ?_
    · rw [hsame other (hdone other hother)]
    · rw [List.filter_singleton, ← hsame node hself]
      by_cases hskipped : (outcomeOf env edges s.artifacts node).status = .skipped <;>
        simp [hskipped]
  · rw [List.flatMap_append, List.flatMap_singleton, ← (hagree node hself).callsOf]
    change s.dispatched ++ _ = _
    rw [hinv.dispatched]
    exact congrArg (· ++ _) (List.flatMap_congr fun other hother =>
      (hagree other (hdone other hother)).callsOf)
  · rw [List.flatMap_append, List.flatMap_singleton, ← (hagree node hself).itemsOf]
    change s.submitted ++ _ = _
    rw [hinv.submitted]
    exact congrArg (· ++ _) (List.flatMap_congr fun other hother =>
      (hagree other (hdone other hother)).itemsOf)

/-- **The loop gets through all nodes.** -/
theorem Inv.foldlM (h : IsPlan env nodes edges initialArtifacts initialPersisted)
    {done : List RuntimeNode} (later : List RuntimeNode) (hnodes : nodes = done ++ later)
    (hinv : Inv env edges initialArtifacts done s) :
    ∃ s', later.foldlM (executeOrSkip env edges) s = .ok s' ∧
      Inv env edges initialArtifacts nodes s' := by
  induction later generalizing done s with
  | nil => exact ⟨s, rfl, by rwa [hnodes, List.append_nil]⟩
  | cons node later ih =>
    obtain ⟨s', hfold, hall⟩ := ih (hnodes.trans (List.append_cons done node later))
      (hinv.record h hnodes)
    refine ⟨s', ?_, hall⟩
    rw [List.foldlM_cons, executeOrSkip_eq hinv.ports hinv.rows]
    exact hfold

/-! ### The law -/

/-- The nodes that were run, and not only proposed. -/
def wasDispatched (outcome : RuntimeNode → NodeOutcome) (node : RuntimeNode) : Bool :=
  (outcome node).status ≠ .skipped && !isCandidate node

/-- An upstream node has what it takes: an artifact from before the run, or it succeeded. -/
def Succeeded (nodes : List RuntimeNode) (initialArtifacts : Dict String RuntimeArtifact)
    (outcome : RuntimeNode → NodeOutcome) (id : String) : Prop :=
  (initialArtifacts.get? id).isSome ∨
    ∃ node ∈ nodes, node.nodeId = id ∧ (outcome node).status = .succeeded

/-- The output of a node is reported: it is an output, or its commit is to be reconciled. -/
def isReported (node : RuntimeNode) : NodeOutcome → Bool
  | .unreconciled _ _ _ => true
  | _ => node.kind = "output"

/-- What becomes of the nodes of a plan. -/
structure StatusLaw (env : Runtime exc) (nodes : List RuntimeNode) (edges : List RuntimeEdge)
    (initialArtifacts : Dict String RuntimeArtifact) (s : ExecutionState)
    (outcome : RuntimeNode → NodeOutcome) : Prop where
  /-- Each node has one entry in the timeline, that of its outcome. -/
  timeline : ∃ terminal, s.timeline = .started :: (nodes.map fun node =>
    eventOf node (outcome node)) ++ [terminal]
  skipped : s.skipped = (nodes.filter fun node => (outcome node).status = .skipped).map
    RuntimeNode.nodeId
  skipped_iff : ∀ node ∈ nodes, (outcome node).status = .skipped ↔
    ∃ edge ∈ edges, edge.targetNodeId = node.nodeId ∧
      ¬ Succeeded nodes initialArtifacts outcome edge.sourceNodeId
  /-- The artifacts are what the nodes made, and what there was before. -/
  artifacts : ∀ node ∈ nodes, s.artifacts.get? node.nodeId = (outcome node).made.map Prod.fst
  before : ∀ id, id ∉ nodes.map RuntimeNode.nodeId →
    s.artifacts.get? id = initialArtifacts.get? id
  /-- Each artifact node that is not skipped is dispatched once, with the artifacts of its upstream
  nodes, and what became of it is what the dispatcher made of that. -/
  dispatched : s.dispatched = (nodes.filter (wasDispatched outcome)).map fun node =>
    (node.nodeId, inputsOf edges s.artifacts node)
  inputs : ∀ node ∈ nodes, wasDispatched outcome node = true →
    inputArtifactsForNode node.nodeId edges s.artifacts = .ok (inputsOf edges s.artifacts node) ∧
      outcome node = artifactOutcome env node (inputsOf edges s.artifacts node)
  /-- Each candidate that is not skipped is submitted once, if it can be. -/
  submitted : s.submitted = (nodes.filter fun node => (outcome node).status ≠ .skipped &&
    isCandidate node).filterMap fun node => (candidateItem node).toOption
  candidates : ∀ node ∈ nodes, (outcome node).status ≠ .skipped → isCandidate node = true →
    outcome node = candidateOutcome env node
  /-- There is one payload for each output, and for each commit to be reconciled. -/
  outputs : ∃ payload : RuntimeNode → Mapping, s.outputs =
    (nodes.filter fun node => isReported node (outcome node)).map payload ∧
      ∀ node ∈ nodes, isReported node (outcome node) = true →
        payloads env node (outcome node) = [payload node]
  /-- The error is that of the first node that failed. -/
  error : s.error = ((nodes.filterMap fun node => (outcome node).error).head?)
  error_iff : s.error = none ↔ ∀ node ∈ nodes, (outcome node).status ≠ .failed
  failed : s.failedNodeId = ((nodes.filter fun node => (outcome node).status = .failed).map
    RuntimeNode.nodeId).head?

theorem flatMap_ite_singleton {α β : Type} (p : α → Bool) (f : α → β) (xs : List α) :
    (xs.flatMap fun x => if p x then [f x] else []) = (xs.filter p).map f := by
  induction xs with
  | nil => rfl
  | cons x xs ih => cases h : p x <;> simp [h, ih]

theorem flatMap_eq_filterMap {α β : Type} {f : α → List β} {g : α → Option β} {xs : List α}
    (h : ∀ x ∈ xs, f x = (g x).toList) : xs.flatMap f = xs.filterMap g := by
  induction xs with
  | nil => rfl
  | cons x xs ih =>
    rw [List.flatMap_cons, h x List.mem_cons_self, List.filterMap_cons,
      ih fun y hy => h y (List.mem_cons_of_mem _ hy)]
    cases g x <;> rfl

theorem status_outcomeOf_eq_skipped_iff {artifacts : Dict String RuntimeArtifact} :
    (outcomeOf env edges artifacts node).status = .skipped ↔
      missingUpstream node edges artifacts ≠ [] := by
  rw [outcomeOf]
  split_ifs with hmissing hkind
  · exact iff_of_true rfl hmissing
  · refine iff_of_false ?_ hmissing
    rw [candidateOutcome]
    cases candidateItem node with
    | error error => simp [NodeOutcome.status]
    | ok item => cases hcommit : env.commit item <;> simp [hcommit, NodeOutcome.status]
  · refine iff_of_false ?_ hmissing
    rw [artifactOutcome]
    cases env.dispatch node (inputsOf edges artifacts node) with
    | artifact artifact =>
      dsimp only
      cases env.succeed node artifact with
      | ok id => simp [NodeOutcome.status]
      | error error => dsimp only; split_ifs <;> simp [NodeOutcome.status]
    | _ => simp [NodeOutcome.status]

theorem wasDispatched_iff {artifacts : Dict String RuntimeArtifact} :
    wasDispatched (outcomeOf env edges artifacts) node = true ↔
      missingUpstream node edges artifacts = [] ∧ isCandidate node = false := by
  rw [wasDispatched, Bool.and_eq_true, decide_eq_true_iff, ne_eq, status_outcomeOf_eq_skipped_iff,
    not_not, Bool.not_eq_true']

/-- A node that is only proposed is a candidate. -/
theorem isCandidate_of_proposed {artifacts : Dict String RuntimeArtifact} {result : CandidateResult}
    (h : outcomeOf env edges artifacts node = .proposed result) : isCandidate node = true := by
  rw [outcomeOf] at h
  split_ifs at h with hmissing hkind
  · exact hkind
  · rw [artifactOutcome] at h
    cases hdispatch : env.dispatch node (inputsOf edges artifacts node) with
    | artifact artifact =>
      rw [hdispatch] at h
      dsimp only at h
      cases hsucceed : env.succeed node artifact with
      | ok id => rw [hsucceed] at h; cases h
      | error error =>
        rw [hsucceed] at h
        dsimp only at h
        split_ifs at h
    | _ =>
      rw [hdispatch] at h
      cases h

/-- A node has an artifact when it succeeded and was not only proposed. -/
theorem isSome_made_iff {artifacts : Dict String RuntimeArtifact} (hkind : isCandidate node = false) :
    (outcomeOf env edges artifacts node).made.isSome = true ↔
      (outcomeOf env edges artifacts node).status = .succeeded := by
  cases houtcome : outcomeOf env edges artifacts node with
  | proposed result =>
    rw [isCandidate_of_proposed houtcome] at hkind
    cases hkind
  | _ => simp [NodeOutcome.made, NodeOutcome.status]

theorem payloads_eq {outcome : NodeOutcome}
    (h : ∀ result, outcome = .proposed result → node.kind = "output") :
    payloads env node outcome = if isReported node outcome then
      [(payloads env node outcome).headD []] else [] := by
  cases outcome with
  | unreconciled artifact error event => rfl
  | proposed result => simp [isReported, payloads, h result rfl]
  | _ => by_cases hkind : node.kind = "output" <;> simp [isReported, payloads, hkind]

section Law

variable (h : IsPlan env nodes edges initialArtifacts initialPersisted)
  (hinv : Inv env edges initialArtifacts nodes s)

include h hinv in
theorem Inv.isSome_iff {edge : RuntimeEdge} (hedge : edge ∈ edges) :
    (s.artifacts.get? edge.sourceNodeId).isSome = true ↔
      Succeeded nodes initialArtifacts (outcomeOf env edges s.artifacts) edge.sourceNodeId := by
  by_cases hmem : edge.sourceNodeId ∈ nodes.map RuntimeNode.nodeId
  · obtain ⟨node, hnode, hid⟩ := List.mem_map.mp hmem
    have hkind : isCandidate node = false := by
      by_contra hcandidate
      exact (h.terminal node hnode (Bool.not_eq_false _ ▸ hcandidate)).2 edge hedge hid.symm
    have hself : ∀ other ∈ nodes, other.nodeId = edge.sourceNodeId → other = node :=
      fun other hother heq => List.inj_on_of_nodup_map h.nodup hother hnode (heq.trans hid.symm)
    rw [← hid, hinv.made node hnode, Option.isSome_map, isSome_made_iff hkind, Succeeded,
      h.fresh node hnode, hid]
    constructor
    · exact fun hstatus => .inr ⟨node, hnode, hid, hstatus⟩
    · rintro (hnone | ⟨other, hother, heq, hstatus⟩)
      · cases hnone
      · rwa [hself other hother heq] at hstatus
  · rw [hinv.others _ hmem, Succeeded, or_iff_left]
    rintro ⟨node, hnode, hid, -⟩
    exact hmem (hid ▸ List.mem_map_of_mem hnode)

include h hinv in
theorem Inv.skipped_iff :
    (outcomeOf env edges s.artifacts node).status = .skipped ↔
      ∃ edge ∈ edges, edge.targetNodeId = node.nodeId ∧
        ¬ Succeeded nodes initialArtifacts (outcomeOf env edges s.artifacts) edge.sourceNodeId := by
  rw [status_outcomeOf_eq_skipped_iff, ne_eq, missingUpstream_eq_nil_iff]
  push Not
  constructor
  · rintro ⟨edge, hedge, htarget, hnone⟩
    exact ⟨edge, hedge, htarget, fun hsucceeded =>
      hnone ((hinv.isSome_iff h hedge).mpr hsucceeded)⟩
  · rintro ⟨edge, hedge, htarget, hfailed⟩
    exact ⟨edge, hedge, htarget, fun hsome => hfailed ((hinv.isSome_iff h hedge).mp hsome)⟩

include hinv in
theorem Inv.error_eq : s.error =
    (nodes.filterMap fun node => (outcomeOf env edges s.artifacts node).error).head? := by
  rw [hinv.error, failuresOf, ← List.head?_map, List.map_filterMap]
  refine congrArg List.head? (List.filterMap_congr fun node _ => ?_)
  cases (outcomeOf env edges s.artifacts node).error <;> rfl

include hinv in
theorem Inv.failed_eq : s.failedNodeId = ((nodes.filter fun node =>
    (outcomeOf env edges s.artifacts node).status = .failed).map RuntimeNode.nodeId).head? := by
  rw [hinv.failed, failuresOf, ← List.head?_map, List.map_filterMap, ← List.filterMap_eq_map,
    List.filterMap_filter]
  refine congrArg List.head? (List.filterMap_congr fun node _ => ?_)
  have hiff := (outcomeOf env edges s.artifacts node).isSome_error_iff
  cases herror : (outcomeOf env edges s.artifacts node).error with
  | none => simp [← hiff, herror]
  | some error => simp [← hiff, herror]

include h hinv in
theorem Inv.statusLaw {terminal : TimelineEvent} :
    StatusLaw env nodes edges initialArtifacts { s with timeline := s.timeline ++ [terminal] }
      (outcomeOf env edges s.artifacts) where
  timeline := ⟨terminal, by rw [hinv.timeline]⟩
  skipped := hinv.skipped
  skipped_iff node _ := hinv.skipped_iff h
  artifacts := hinv.made
  before := hinv.others
  dispatched := by
    change s.dispatched = _
    rw [hinv.dispatched, ← flatMap_ite_singleton]
    refine List.flatMap_congr fun node _ => ?_
    rw [callsOf]
    by_cases hdispatched : wasDispatched (outcomeOf env edges s.artifacts) node = true
    · obtain ⟨hmissing, hkind⟩ := wasDispatched_iff.mp hdispatched
      rw [if_pos hdispatched, if_neg (by simp [hmissing, hkind])]
    · rw [if_neg hdispatched, if_pos]
      by_contra hboth
      rw [not_or, not_not, Bool.not_eq_true] at hboth
      exact hdispatched (wasDispatched_iff.mpr hboth)
  inputs node hnode hdispatched := by
    obtain ⟨hmissing, hkind⟩ := wasDispatched_iff.mp hdispatched
    refine ⟨inputArtifactsForNode_eq_ok hinv.ports hmissing, ?_⟩
    rw [outcomeOf, if_neg (not_not.mpr hmissing), if_neg (by simp [hkind])]
  submitted := by
    change s.submitted = _
    rw [hinv.submitted, List.filterMap_filter]
    refine flatMap_eq_filterMap fun node _ => ?_
    have hskipped := (@status_outcomeOf_eq_skipped_iff _ env edges node s.artifacts).not
    rw [not_not] at hskipped
    by_cases hsubmitted : missingUpstream node edges s.artifacts = [] ∧ isCandidate node = true
    · rw [itemsOf, if_neg (by simp [hsubmitted]), if_pos (by simp [hskipped, hsubmitted])]
      cases candidateItem node <;> rfl
    · have hneither : missingUpstream node edges s.artifacts ≠ [] ∨ isCandidate node = false := by
        by_contra hboth
        rw [not_or, not_not, Bool.not_eq_false] at hboth
        exact hsubmitted hboth
      rw [itemsOf, if_pos hneither, if_neg (by simpa [hskipped] using hsubmitted)]
      rfl
  candidates node hnode hstatus hkind := by
    rw [ne_eq, status_outcomeOf_eq_skipped_iff] at hstatus
    rw [outcomeOf, if_neg hstatus, if_pos hkind]
  outputs := by
    refine ⟨fun node => (payloads env node (outcomeOf env edges s.artifacts node)).headD [], ?_, ?_⟩
    · change s.outputs = _
      rw [hinv.outputs, ← flatMap_ite_singleton]
      exact List.flatMap_congr fun node hnode => payloads_eq fun result houtcome =>
        (h.terminal node hnode (isCandidate_of_proposed houtcome)).1
    · intro node hnode hreported
      have heq := @payloads_eq _ env node (outcomeOf env edges s.artifacts node)
        fun result houtcome => (h.terminal node hnode (isCandidate_of_proposed houtcome)).1
      rwa [if_pos hreported] at heq
  error := hinv.error_eq
  error_iff := by
    change s.error = none ↔ _
    rw [hinv.error_eq, List.head?_eq_none_iff, List.filterMap_eq_nil_iff]
    refine forall₂_congr fun node _ => ?_
    rw [ne_eq, ← NodeOutcome.isSome_error_iff, Option.not_isSome_iff_eq_none]
  failed := hinv.failed_eq

end Law

/-- **The status law.** A run of a plan ends, and every node of it succeeded, failed or was skipped
as its upstream nodes and its dispatch say. -/
theorem execute_spec (h : IsPlan env nodes edges initialArtifacts initialPersisted) :
    ∃ s outcome, execute env nodes edges initialArtifacts initialPersisted = .ok s ∧
      StatusLaw env nodes edges initialArtifacts s outcome := by
  obtain ⟨s, hfold, hinv⟩ := (inv_initial h).foldlM h nodes rfl
  refine ⟨{ s with timeline := s.timeline ++ [terminalTimeline s] }, _, ?_, hinv.statusLaw h⟩
  rw [execute, hfold]
  rfl

/-- A source, and an ontology mapping that is proposed from it. -/
def sourceNode : RuntimeNode := ⟨"rows", "source", "source.dataset", 1, "dataset", []⟩

def mappingNode : RuntimeNode :=
  ⟨"mapping", "output", "output.ontology", 1, "ontology", [("mappingRef", .str "orders")]⟩

def mappingEdges : List RuntimeEdge := [⟨"e", "rows", "dataset", "mapping", "dataset"⟩]

/-- A runtime in which every node makes a dataset and every candidate is accepted. -/
def datasetRuntime : Runtime String where
  repr _ := ""
  digest _ := ""
  dispatch node _ := .artifact ⟨node.nodeId, "dataset", "dataset_version", "dataset", [], [],
    "COMMITTED", false⟩
  succeed node _ := .ok node.nodeId
  commit item := .ok ⟨[("nodeId", .str item.nodeId), ("status", .str "CANDIDATE")], []⟩
  errorPayload error := [("message", .str error)]
  domainError error := error.message

theorem isPlan_mapping : IsPlan datasetRuntime [sourceNode, mappingNode] mappingEdges ∅ ∅ where
  nodup := by decide
  ordered := by
    intro before node after hnodes edge hedge htarget
    obtain rfl := List.mem_singleton.mp hedge
    have hnode : node ∈ [sourceNode, mappingNode] := by rw [hnodes]; simp
    rcases List.mem_pair.mp hnode with rfl | rfl
    · exact absurd htarget (by decide)
    · -- The mapping is the second node, and nothing comes after it.
      have hafter : after = [] := by
        cases before with
        | nil => exact absurd (List.cons.inj hnodes).1 (by decide)
        | cons _ before =>
          cases before with
          | nil => exact (List.cons.inj (List.cons.inj hnodes).2).2.symm
          | cons _ before =>
            have hlength := congrArg List.length hnodes
            simp at hlength
      subst hafter
      decide
  terminal := by decide
  ports := by
    rintro node - inputs artifact hdispatch edge hedge -
    obtain rfl := DispatchOutcome.artifact.inj hdispatch
    obtain rfl := List.mem_singleton.mp hedge
    rfl
  fresh _ _ := rfl
  initialPorts _ _ _ h := by cases h
  initialRows _ := rfl

theorem execute_mapping : ∃ s outcome,
    execute datasetRuntime [sourceNode, mappingNode] mappingEdges ∅ ∅ = .ok s ∧
      StatusLaw datasetRuntime [sourceNode, mappingNode] mappingEdges ∅ s outcome :=
  execute_spec isPlan_mapping

/-- **A candidate is not dispatched**: the mapping is not skipped, and the dispatcher is never asked
about it. -/
theorem candidate_not_dispatched : ¬ ∀ s,
    execute datasetRuntime [sourceNode, mappingNode] mappingEdges ∅ ∅ = .ok s →
      ∀ node ∈ [sourceNode, mappingNode], node.nodeId ∉ s.skipped →
        (s.dispatched.countP fun call => call.1 = node.nodeId) = 1 := by
  intro h
  have hmapping := h _ rfl mappingNode (by decide) (by decide +kernel)
  revert hmapping
  decide +kernel

end FoundryLite.Pipeline.RuntimeExecutor
