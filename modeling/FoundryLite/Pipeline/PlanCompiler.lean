import FoundryLite.Library.Worklist
import FoundryLite.Pipeline.GraphTopology

/-!
# From a pipeline graph to an execution plan

The compiler selects the targets of a run and everything they are made from, orders what it has
selected, pins each node to its descriptor, and keeps the edges between selected nodes. The selection
walks the edges backwards with a stack; the order comes from taking away, of the selected nodes that
nothing selected leads to any more, the one with the least id.

The order is computed on the selected part of the graph and the validator has looked for cycles in
the whole of it, with the same counts (`GraphTopology.Inv`). So what the validator has let pass is
ordered to the end.

## Main results

* `compilePlan_spec`: the compiler ends on a validated graph and known targets; a plan it returns is
  exact (`IsExactPlan`), and an error it raises is the refusal of one selected node by its
  descriptor.
-/

namespace FoundryLite.Pipeline.PlanCompiler

open Relation GraphTopology

/-! ### Graphs -/

inductive PipelineNodeKind where
  | source
  | transform
  | output
  deriving DecidableEq

inductive PipelineNodeAvailability where
  | legacyExecutable
  | graphV2Executable
  | governedCandidate
  | validationOnly
  deriving DecidableEq

def PipelineNodeAvailability.text : PipelineNodeAvailability → String
  | legacyExecutable => "legacy_executable"
  | graphV2Executable => "graph_v2_executable"
  | governedCandidate => "governed_candidate"
  | validationOnly => "validation_only"

structure PipelineNodeExecutionPolicy where
  maximumAttempts : ℕ
  initialBackoffSeconds : ℕ
  maximumBackoffSeconds : ℕ
  timeoutSeconds : ℕ
  requiresStableIdempotency : Bool

structure PipelineNodeDescriptor where
  descriptorId : String
  specVersion : ℤ
  availability : PipelineNodeAvailability
  runtimeCapability : String
  executionPolicy : PipelineNodeExecutionPolicy

structure GraphNode where
  id : String
  kind : PipelineNodeKind
  descriptorId : String
  specVersion : ℤ
  config : Mapping

structure GraphEdge where
  id : String
  sourceNodeId : String
  sourcePortId : String
  targetNodeId : String
  targetPortId : String
  deriving DecidableEq

/-- The ends of an edge, without its ports. -/
def GraphEdge.ends (edge : GraphEdge) : PipelineV2Edge := ⟨edge.sourceNodeId, edge.targetNodeId⟩

/-- A canonical graph. -/
structure PipelineGraph where
  nodes : List GraphNode
  edges : List GraphEdge
  outputContract : Mapping

namespace PipelineGraph

def ids (graph : PipelineGraph) : List String := graph.nodes.map GraphNode.id

def ends (graph : PipelineGraph) : List PipelineV2Edge := graph.edges.map GraphEdge.ends

end PipelineGraph

/-- What the compiler knows of the outside: the registered descriptors, and the runtimes that are
enabled. -/
structure Catalogue where
  pipelineNodeDescriptor : String → ℤ → Option PipelineNodeDescriptor
  availableRuntimeCapabilities : List String

/-! ### Validation -/

/-- The checks of the validator that are about one node, one edge or one port at a time. -/
structure LocalChecks where
  shape : PipelineGraph → List Mapping
  descriptor : PipelineGraph → List Mapping
  ports : PipelineGraph → List Mapping
  operation : PipelineGraph → List Mapping

/-- `_node_identity_errors`, of one node after the other. -/
def nodeIdentityErrors : List String → List String → List Mapping
  | _, [] => []
  | seen, id :: ids =>
    let errors := if id = "" then [[("code", .str "node_id_required")]]
      else if id ∈ seen then [[("code", .str "duplicate_node_id"), ("nodeId", .str id)]] else []
    errors ++ nodeIdentityErrors (if id = "" then seen else id :: seen) ids

def edgeEndpointErrors (graph : PipelineGraph) : List Mapping :=
  graph.edges.flatMap fun edge =>
    (if edge.sourceNodeId ∉ graph.ids
      then [[("code", .str "dangling_edge_source"), ("edgeId", .str edge.id)]] else []) ++
    (if edge.targetNodeId ∉ graph.ids
      then [[("code", .str "dangling_edge_target"), ("edgeId", .str edge.id)]] else [])

def topologyErrors (checks : LocalChecks) (graph : PipelineGraph) : Option (Checked (List Mapping)) :=
  if edgeEndpointErrors graph ≠ [] then some (pure (edgeEndpointErrors graph))
  else (cycleErrors graph.nodes.length (graph.ids.map PipelineV2Node.mk) graph.ends).map
    (Except.map (checks.ports graph ++ ·))

def validatePipelineGraphV2 (checks : LocalChecks) (graph : PipelineGraph) :
    Option (Checked (List Mapping)) :=
  let shape := checks.shape graph ++ nodeIdentityErrors [] graph.ids
  if shape ≠ [] then some (pure shape)
  else (topologyErrors checks graph).map
    (Except.map (checks.descriptor graph ++ · ++ checks.operation graph))

/-! ### Compilation -/

structure PlanNode where
  nodeId : String
  nodeKind : PipelineNodeKind
  descriptorId : String
  specVersion : ℤ
  runtimeCapability : String
  config : Mapping
  executionPolicy : PipelineNodeExecutionPolicy

structure Plan where
  targetNodeIds : List String
  nodes : List PlanNode
  edges : List GraphEdge

def normalizedTargets (targetNodeIds : List String) (graph : PipelineGraph) :
    Checked (List String) := do
  let targets := Dict.sortedSet targetNodeIds
  let missing := targets.filter (· ∉ graph.ids)
  rejectIf (missing ≠ []) "pipeline target node was not found"
    [("reason", .str "target_node_not_found"), ("targetNodeIds", .arr (missing.map .str))]
  return targets

/-- The sources of the edges to each node. -/
def incomingSources (edges : List PipelineV2Edge) : Dict String (List String) :=
  edges.foldl (fun incoming edge => incoming.insert edge.targetNodeId
    ((incoming.get? edge.targetNodeId).getD [] ++ [edge.sourceNodeId])) ∅

def selectedNodeIds (rounds : ℕ) (graph : PipelineGraph) (targets : List String) :
    Option (List String) :=
  if targets = [] then some (Dict.sortedSet graph.ids)
  else Worklist.close (fun id => ((incomingSources graph.ends).get? id).getD []) rounds
    ⟨targets, targets.reverse⟩

/-- Count the edges between selected nodes. -/
def countSelectedEdge (selected : List String) (counts : Counts) (edge : PipelineV2Edge) :
    Checked Counts :=
  if edge.sourceNodeId ∈ selected ∧ edge.targetNodeId ∈ selected then countEdge counts edge
  else pure counts

/-- One edge to the target is gone; the ready nodes are kept in order. -/
def releaseInOrder (s : Elimination) (target : String) : Checked Elimination := do
  let count ← subscript s.incoming target
  return ⟨if count - 1 = 0 then (s.ready ++ [target]).mergeSort (· ≤ ·) else s.ready,
    s.incoming.insert target (count - 1)⟩

def takeNode (outgoing : Dict String (List String)) (current : String) (s : Elimination) :
    Checked Elimination := do
  let targets ← subscript outgoing current
  (targets.mergeSort (· ≤ ·)).foldlM releaseInOrder s

/-- `_consume_topology`: the nodes in the order in which they go. -/
def consumeInOrder (outgoing : Dict String (List String)) :
    ℕ → Elimination → List String → Option (Checked (List String))
  | _, ⟨[], _⟩, ordered => some (pure ordered)
  | 0, ⟨_ :: _, _⟩, _ => none
  | rounds + 1, ⟨current :: ready, incoming⟩, ordered =>
    match takeNode outgoing current ⟨ready, incoming⟩ with
    | .ok s => consumeInOrder outgoing rounds s (ordered ++ [current])
    | .error e => some (throw e)

def topologicalNodeIds (rounds : ℕ) (selected : List String) (edges : List PipelineV2Edge) :
    Option (Checked (List String)) :=
  match edges.foldlM (countSelectedEdge selected) (noCounts (selected.map PipelineV2Node.mk)) with
  | .error e => some (throw e)
  | .ok counts =>
    (consumeInOrder counts.outgoing rounds ⟨readyNodes counts.incoming, counts.incoming⟩ []).map
      fun result => result.bind fun ordered =>
        if ordered.length ≠ selected.length
        then validationFailed "pipeline selected path contains a cycle" else pure ordered

/-- The sources whose schema in the configuration is not to be trusted. -/
def schemaBearingSources : List String :=
  ["source.dataset", "source.media_set", "source.stream", "source.geospatial"]

def sourceConfigWithoutUntrustedSchema (descriptorId : String) (config : Mapping) : Mapping :=
  if descriptorId ∈ schemaBearingSources then config.filter fun entry => entry.1 ≠ "schema"
  else config

def requiredDescriptor (catalogue : Catalogue) (node : GraphNode) :
    Checked PipelineNodeDescriptor :=
  match catalogue.pipelineNodeDescriptor node.descriptorId node.specVersion with
  | some descriptor => pure descriptor
  | none => validationFailed "pipeline node descriptor is not registered"
      [("nodeId", .str node.id), ("descriptorId", .str node.descriptorId),
        ("specVersion", .int node.specVersion)]

def runtimeFailureDetails (node : GraphNode) (descriptor : PipelineNodeDescriptor) : Mapping :=
  [("nodeId", .str node.id), ("descriptorId", .str descriptor.descriptorId),
    ("specVersion", .int descriptor.specVersion),
    ("availability", .str descriptor.availability.text),
    ("runtimeCapability", .str descriptor.runtimeCapability)]

/-- The availabilities under which a node may run. -/
def executableAvailabilities : List PipelineNodeAvailability :=
  [.graphV2Executable, .legacyExecutable, .governedCandidate]

def requireExecutable (catalogue : Catalogue) (node : GraphNode)
    (descriptor : PipelineNodeDescriptor) : Checked Unit := do
  rejectIf (descriptor.availability ∉ executableAvailabilities) "pipeline node runtime is not executable"
    (runtimeFailureDetails node descriptor ++ [("reason", .str "descriptor_validation_only")])
  rejectIf (descriptor.runtimeCapability ∉ catalogue.availableRuntimeCapabilities)
    "pipeline runtime capability is not enabled"
    (runtimeFailureDetails node descriptor ++ [("reason", .str "runtime_capability_not_enabled")])

def planNode (graph : PipelineGraph) (node : GraphNode) (descriptor : PipelineNodeDescriptor) :
    PlanNode :=
  let config := sourceConfigWithoutUntrustedSchema descriptor.descriptorId node.config
  { nodeId := node.id
    nodeKind := node.kind
    descriptorId := descriptor.descriptorId
    specVersion := descriptor.specVersion
    runtimeCapability := descriptor.runtimeCapability
    config := if descriptor.descriptorId = "output.dataset"
      then ("outputContract", .obj graph.outputContract) :: config else config
    executionPolicy := descriptor.executionPolicy }

/-- One turn of the loop of `_plan_nodes`. -/
def pinNode (catalogue : Catalogue) (graph : PipelineGraph) (node : GraphNode) :
    Checked PlanNode := do
  let descriptor ← requiredDescriptor catalogue node
  requireExecutable catalogue node descriptor
  return planNode graph node descriptor

/-- `{node["id"]: node for node in graph["nodes"]}`, in which the last node of an id counts. -/
def nodeById (graph : PipelineGraph) : Dict String GraphNode :=
  Dict.ofList (graph.nodes.reverse.map fun node => (node.id, node))

def planNodes (catalogue : Catalogue) (graph : PipelineGraph) (ordered : List String) :
    Checked (List PlanNode) :=
  ordered.mapM fun id => do
    let node ← subscript (nodeById graph) id
    pinNode catalogue graph node

def planEdges (edges : List GraphEdge) (selected : List String) : List GraphEdge :=
  edges.filter fun edge => edge.sourceNodeId ∈ selected ∧ edge.targetNodeId ∈ selected

/-- The nodes and edges of the plan of a validated graph; `none` when it is given too few rounds. -/
def compilePlan (catalogue : Catalogue) (rounds : ℕ) (graph : PipelineGraph)
    (targetNodeIds : List String) : Option (Checked Plan) :=
  match normalizedTargets targetNodeIds graph with
  | .error e => some (throw e)
  | .ok targets =>
    (selectedNodeIds rounds graph targets).bind fun selected =>
      (topologicalNodeIds rounds selected graph.ends).map fun result => result.bind fun ordered =>
        (planNodes catalogue graph ordered).map fun nodes =>
          ⟨targets, nodes, planEdges graph.edges selected⟩

/-! ### The selection -/

section Selection

variable {graph : PipelineGraph} {targets : List String}

theorem get?_incomingSources (edges : List PipelineV2Edge) (id : String) :
    ((incomingSources edges).get? id).getD [] =
      (edges.filter fun edge => edge.targetNodeId = id).map PipelineV2Edge.sourceNodeId := by
  have hfold : ∀ (edges : List PipelineV2Edge) (incoming : Dict String (List String)),
      ((edges.foldl (fun incoming edge => incoming.insert edge.targetNodeId
        ((incoming.get? edge.targetNodeId).getD [] ++ [edge.sourceNodeId])) incoming).get?
          id).getD [] = (incoming.get? id).getD [] ++
        (edges.filter fun edge => edge.targetNodeId = id).map PipelineV2Edge.sourceNodeId := by
    intro edges
    induction edges with
    | nil => simp
    | cons edge edges ih =>
      intro incoming
      rw [List.foldl_cons, ih, Dict.get?_insert]
      by_cases htarget : id = edge.targetNodeId
      · subst htarget
        simp
      · simp [htarget, Ne.symm htarget]
  exact (hfold edges ∅).trans (List.nil_append _)

theorem mem_incomingSources {edges : List PipelineV2Edge} {source id : String} :
    source ∈ ((incomingSources edges).get? id).getD [] ↔ EdgeOf edges source id := by
  rw [get?_incomingSources, EdgeOf]
  simp only [List.mem_map, List.mem_filter, decide_eq_true_eq]
  constructor
  · rintro ⟨⟨_, _⟩, ⟨hmem, rfl⟩, rfl⟩
    exact hmem
  · exact fun hmem => ⟨⟨source, id⟩, ⟨hmem, rfl⟩, rfl⟩

/-- A node is selected when it is a target or an ancestor of one, or when there are no targets. -/
def IsSelected (graph : PipelineGraph) (targets : List String) (id : String) : Prop :=
  id ∈ graph.ids ∧ (targets = [] ∨ ∃ target ∈ targets, ReflTransGen (EdgeOf graph.ends) id target)

/-- The ends of every edge are nodes of the graph. -/
def EndsKnown (graph : PipelineGraph) : Prop :=
  ∀ edge ∈ graph.edges, edge.sourceNodeId ∈ graph.ids ∧ edge.targetNodeId ∈ graph.ids

theorem EndsKnown.ends (h : EndsKnown graph) :
    ∀ edge ∈ graph.ends, edge.sourceNodeId ∈ graph.ids ∧ edge.targetNodeId ∈ graph.ids := by
  intro ends hmem
  obtain ⟨edge, hedge, rfl⟩ := List.mem_map.mp hmem
  exact h edge hedge

/-- An ancestor of a node of the graph is one. -/
theorem EndsKnown.mem_ids (h : EndsKnown graph) {a b : String} (hb : b ∈ graph.ids)
    (hpath : ReflTransGen (EdgeOf graph.ends) a b) : a ∈ graph.ids := by
  cases hpath using ReflTransGen.head_induction_on with
  | refl => exact hb
  | head hedge _ => exact (h.ends _ hedge).1

theorem selectedNodeIds_spec (hends : EndsKnown graph) (hnodup : targets.Nodup)
    (hknown : ∀ target ∈ targets, target ∈ graph.ids) {rounds : ℕ}
    (hrounds : graph.nodes.length ≤ rounds) :
    ∃ selected, selectedNodeIds rounds graph targets = some selected ∧ selected.Nodup ∧
      ∀ id, id ∈ selected ↔ IsSelected graph targets id := by
  rw [selectedNodeIds]
  split_ifs with hnone
  · refine ⟨_, rfl, ?_, fun id => ?_⟩
    · rw [Dict.sortedSet, List.Nodup, List.pairwise_map]
      exact (Dict.sorted_canon _).imp fun hlt => hlt.ne
    · rw [Dict.mem_sortedSet, IsSelected]
      exact ⟨fun hid => ⟨hid, .inl hnone⟩, fun hid => hid.1⟩
  · have hswap : ∀ a b, ReflTransGen (Worklist.Succ fun id =>
        ((incomingSources graph.ends).get? id).getD []) a b ↔
          ReflTransGen (EdgeOf graph.ends) b a := by
      intro a b
      rw [← reflTransGen_swap]
      have hsucc : (Worklist.Succ fun id => ((incomingSources graph.ends).get? id).getD []) =
          Function.swap (EdgeOf graph.ends) := by
        ext a b
        exact mem_incomingSources
      rw [hsucc]
    have hancestor : ∀ id, (∃ target ∈ targets, ReflTransGen (Worklist.Succ fun id =>
        ((incomingSources graph.ends).get? id).getD []) target id) ↔
          IsSelected graph targets id := by
      intro id
      simp only [hswap, IsSelected, hnone, false_or]
      constructor
      · rintro ⟨target, htarget, hpath⟩
        exact ⟨hends.mem_ids (hknown target htarget) hpath, target, htarget, hpath⟩
      · exact fun h => h.2
    have hbound : graph.ids.length ≤ rounds := by rwa [PipelineGraph.ids, List.length_map]
    obtain ⟨selected, hclose, hselected, hmem⟩ := Worklist.close_eq_some hnodup
      (List.reverse_perm targets) (fun id hid => ((hancestor id).mp hid).1) hbound
    exact ⟨selected, hclose, hselected, fun id => (hmem id).trans (hancestor id)⟩

end Selection

/-! ### The order -/

section Order

variable {ids : List String} {edges : List PipelineV2Edge} {done released : List String}
  {s : Elimination}

/-- Of the nodes that are ready, the order does not matter. -/
theorem inv_perm {ready ready' : List String} {incoming : Dict String ℤ}
    (h : Inv ids edges done released ⟨ready, incoming⟩) (hperm : ready'.Perm ready) :
    Inv ids edges done released ⟨ready', incoming⟩ := by
  have happend : (done ++ ready').Perm (done ++ ready) := hperm.append_left done
  refine ⟨happend.nodup_iff.mpr h.nodup, fun node hnode => h.subset node (happend.mem_iff.mp hnode),
    h.counts, fun node hnode => happend.mem_iff.trans (h.free node hnode), fun edge hedge hmem => ?_⟩
  have hold := happend.mem_iff.mp hmem
  have hlt := h.ordered edge hedge hold
  -- The source of an edge to a node that is gone or ready is gone.
  have hsource : edge.sourceNodeId ∈ done := by
    have htarget := h.subset _ hold
    have hzero := (h.free _ htarget).mp hold
    exact pending_eq_zero_iff.mp (Nat.eq_zero_of_add_eq_zero_left hzero) edge hedge rfl
  rw [List.idxOf_append_of_mem hsource] at hlt ⊢
  by_cases hdone : edge.targetNodeId ∈ done
  · rwa [List.idxOf_append_of_mem hdone] at hlt ⊢
  · rw [List.idxOf_append_of_notMem hdone]
    exact Nat.lt_add_right _ (List.idxOf_lt_length_of_mem hsource)

theorem inv_releaseInOrder {target : String}
    (h : Inv ids edges done (target :: released) s) (htarget : target ∈ ids) :
    ∃ s', releaseInOrder s target = .ok s' ∧ Inv ids edges done released s' := by
  obtain ⟨s₁, hstep, hinv⟩ := h.release htarget
  obtain ⟨count, hcount, hs₁⟩ := Except.bind_eq_ok_iff.mp hstep
  obtain rfl := Except.pure_eq_ok_iff.mp hs₁
  refine ⟨_, Except.bind_eq_ok_iff.mpr ⟨count, hcount, rfl⟩, inv_perm hinv ?_⟩
  split_ifs
  · exact List.mergeSort_perm _ _
  · exact .refl _

/-- **The loop ends**, with the nodes in the order in which they went. -/
theorem inv_consumeInOrder {outgoing : Dict String (List String)}
    (houtgoing : ∀ node ∈ ids, outgoing.get? node = some (targetsOf edges node))
    (hedges : ∀ edge ∈ edges, edge.targetNodeId ∈ ids) (rounds : ℕ)
    (h : Inv ids edges done [] s) (hrounds : ids.length ≤ rounds + done.length) :
    ∃ gone incoming, consumeInOrder outgoing rounds s done = some (.ok gone) ∧
      Inv ids edges gone [] ⟨[], incoming⟩ := by
  obtain ⟨left, gone, incoming, hrun, hgone⟩ := h.exists_end
    (fun rounds done s => consumeInOrder outgoing rounds s done)
    (fun rounds hinv => by
      obtain ⟨s', hstep, hinv'⟩ := hinv.take inv_releaseInOrder houtgoing hedges
      refine ⟨s', hinv', ?_⟩
      rw [consumeInOrder, takeNode, hstep]) rounds hrounds
  exact ⟨gone, incoming, hrun.trans (by cases left <;> rfl), hgone⟩

theorem foldlM_countSelectedEdge (selected : List String) (edges : List PipelineV2Edge)
    (counts : Counts) : edges.foldlM (countSelectedEdge selected) counts =
      (edges.filter fun edge => edge.sourceNodeId ∈ selected ∧
        edge.targetNodeId ∈ selected).foldlM countEdge counts := by
  induction edges generalizing counts with
  | nil => rfl
  | cons edge edges ih =>
    rw [List.foldlM_cons, countSelectedEdge]
    by_cases hinside : edge.sourceNodeId ∈ selected ∧ edge.targetNodeId ∈ selected
    · rw [if_pos hinside, List.filter_cons_of_pos (by simpa using hinside), List.foldlM_cons]
      exact congrArg _ (funext ih)
    · rw [if_neg hinside, List.filter_cons_of_neg (by simpa using hinside)]
      exact ih counts

/-- **The selected nodes of an acyclic graph are ordered**, sources first. -/
theorem topologicalNodeIds_spec {selected : List String} (hselected : selected.Nodup)
    (hacyclic : Acyclic (EdgeOf edges)) {rounds : ℕ} (hrounds : selected.length ≤ rounds) :
    ∃ ordered, topologicalNodeIds rounds selected edges = some (.ok ordered) ∧
      ordered.Perm selected ∧ ∀ edge ∈ edges, edge.sourceNodeId ∈ selected →
        edge.targetNodeId ∈ selected →
          ordered.idxOf edge.sourceNodeId < ordered.idxOf edge.targetNodeId := by
  let inside := edges.filter fun edge => edge.sourceNodeId ∈ selected ∧ edge.targetNodeId ∈ selected
  have hmem : ∀ edge ∈ inside, edge ∈ edges ∧ edge.sourceNodeId ∈ selected ∧
      edge.targetNodeId ∈ selected := fun edge hedge => by simpa using List.mem_filter.mp hedge
  have hstart := counted_noCounts (selected.map PipelineV2Node.mk)
  rw [List.map_map, show PipelineV2Node.id ∘ PipelineV2Node.mk = id from rfl, List.map_id] at hstart
  obtain ⟨counts, hfold, hcounted⟩ := hstart.foldlM inside fun edge hedge => (hmem edge hedge).2
  rw [List.nil_append] at hcounted
  obtain ⟨gone, incoming, hloop, hinv⟩ := inv_consumeInOrder
    (fun node hnode => (hcounted.outgoing node).trans (if_pos hnode))
    (fun edge hedge => (hmem edge hedge).2.2) rounds hcounted.inv (by simpa using hrounds)
  have hlength := (length_eq_iff_acyclic hselected (fun edge hedge => (hmem edge hedge).2) hinv).mpr
    (hacyclic.mono fun a b hedge => (hmem _ hedge).1)
  have hnodup : gone.Nodup := by simpa using hinv.nodup
  have hperm := (List.subperm_of_subset hnodup fun node hnode =>
    hinv.subset node (by simpa using hnode)).perm_of_length_le hlength.ge
  refine ⟨gone, ?_, hperm, fun edge hedge hsource htarget => ?_⟩
  · rw [topologicalNodeIds, foldlM_countSelectedEdge, hfold]
    dsimp only
    rw [hloop, Option.map_some]
    simp [Except.bind, hlength]
  · have hinside : edge ∈ inside := List.mem_filter.mpr ⟨hedge, by simpa using ⟨hsource, htarget⟩⟩
    simpa using hinv.ordered edge hinside (by simpa using hperm.mem_iff.mpr htarget)

end Order

/-! ### The plan -/

section Plan

variable {catalogue : Catalogue} {graph : PipelineGraph} {checks : LocalChecks}
  {targets : List String} {rounds : ℕ}

/-- What the validator lets pass, as far as its checks look at more than one node or edge. -/
structure IsValidated (graph : PipelineGraph) : Prop where
  nodup : graph.ids.Nodup
  known : EndsKnown graph
  acyclic : Acyclic (EdgeOf graph.ends)

theorem nodup_of_nodeIdentityErrors {seen ids : List String}
    (h : nodeIdentityErrors seen ids = []) : ids.Nodup ∧ ∀ id ∈ ids, id ∉ seen := by
  induction ids generalizing seen with
  | nil => exact ⟨List.nodup_nil, fun _ hid => absurd hid List.not_mem_nil⟩
  | cons id ids ih =>
    rw [nodeIdentityErrors] at h
    obtain ⟨hhead, htail⟩ := List.append_eq_nil_iff.mp h
    split_ifs at hhead with hempty hseen
    · rw [if_neg hempty] at htail
      obtain ⟨hnodup, hfresh⟩ := ih htail
      refine ⟨List.nodup_cons.mpr ⟨fun hmem => hfresh id hmem List.mem_cons_self, hnodup⟩,
        List.forall_mem_cons.mpr ⟨hseen, fun other hother hmem => ?_⟩⟩
      exact hfresh other hother (List.mem_cons_of_mem _ hmem)

theorem endsKnown_of_edgeEndpointErrors (h : edgeEndpointErrors graph = []) : EndsKnown graph := by
  intro edge hedge
  have hnone := List.flatMap_eq_nil_iff.mp h edge hedge
  obtain ⟨hsource, htarget⟩ := List.append_eq_nil_iff.mp hnone
  split_ifs at hsource htarget with h₁ h₂
  exact ⟨h₁, h₂⟩

theorem isValidated_of_validate (h : validatePipelineGraphV2 checks graph = some (.ok [])) :
    IsValidated graph := by
  rw [validatePipelineGraphV2] at h
  split_ifs at h with hshape
  · exact absurd (Except.ok.inj (Option.some.inj h)) hshape
  rw [not_not] at hshape
  obtain ⟨hnodup, -⟩ := nodup_of_nodeIdentityErrors (List.append_eq_nil_iff.mp hshape).2
  obtain ⟨result, htopology, hresult⟩ := Option.map_eq_some_iff.mp h
  obtain ⟨topology, rfl, hall⟩ := Except.map_eq_ok_iff.mp hresult
  have hnil : topology = [] :=
    (List.append_eq_nil_iff.mp (List.append_eq_nil_iff.mp hall).1).2
  rw [topologyErrors] at htopology
  split_ifs at htopology with hends
  · exact absurd (hnil ▸ Except.ok.inj (Option.some.inj htopology)) hends
  · have hknown := endsKnown_of_edgeEndpointErrors (not_not.mp hends)
    obtain ⟨result, hcycle, hresult⟩ := Option.map_eq_some_iff.mp htopology
    obtain ⟨errors, rfl, hports⟩ := Except.map_eq_ok_iff.mp hresult
    have herrors : errors = [] := (List.append_eq_nil_iff.mp (hports.trans hnil)).2
    have hids : (graph.ids.map PipelineV2Node.mk).map PipelineV2Node.id = graph.ids := by
      rw [List.map_map]
      exact List.map_id _
    have hlength : (graph.ids.map PipelineV2Node.mk).length = graph.nodes.length := by
      rw [List.length_map, PipelineGraph.ids, List.length_map]
    rw [herrors, ← hlength] at hcycle
    exact ⟨hnodup, hknown, (cycleErrors_length_eq_iff (hids.symm ▸ hnodup)
      (hids.symm ▸ hknown.ends)).mp hcycle⟩

/-- What a plan should be: the targets and their ancestors, or all nodes without a target, each once
and sources first, pinned to their descriptors; and the edges between them. -/
structure IsExactPlan (catalogue : Catalogue) (graph : PipelineGraph) (targets : List String)
    (plan : Plan) : Prop where
  nodes : ∀ id, id ∈ plan.nodes.map PlanNode.nodeId ↔ IsSelected graph targets id
  once : (plan.nodes.map PlanNode.nodeId).Nodup
  ordered : ∀ edge ∈ plan.edges, (plan.nodes.map PlanNode.nodeId).idxOf edge.sourceNodeId <
    (plan.nodes.map PlanNode.nodeId).idxOf edge.targetNodeId
  edges : plan.edges = graph.edges.filter fun edge =>
    edge.sourceNodeId ∈ plan.nodes.map PlanNode.nodeId ∧
      edge.targetNodeId ∈ plan.nodes.map PlanNode.nodeId
  pinned : ∀ planned ∈ plan.nodes, ∃ node ∈ graph.nodes, pinNode catalogue graph node = .ok planned

theorem get?_nodeById (hnodup : graph.ids.Nodup) {node : GraphNode} (hnode : node ∈ graph.nodes) :
    (nodeById graph).get? node.id = some node := by
  rw [nodeById, Dict.get?_ofList]
  refine Dict.lookup_eq_some_of_mem ?_
    (List.mem_map.mpr ⟨node, List.mem_reverse.mpr hnode, rfl⟩)
  rw [List.map_map, List.map_reverse]
  exact List.nodup_reverse.mpr hnodup

theorem nodeId_of_pinNode {node : GraphNode} {planned : PlanNode}
    (h : pinNode catalogue graph node = .ok planned) : planned.nodeId = node.id := by
  obtain ⟨descriptor, -, h⟩ := Except.bind_eq_ok_iff.mp h
  obtain ⟨-, -, h⟩ := Except.bind_eq_ok_iff.mp h
  rw [← Except.pure_eq_ok_iff.mp h, planNode]

/-- The planned nodes are the ordered ones, or one of these was refused by its descriptor. -/
theorem planNodes_cases (hnodup : graph.ids.Nodup) {ordered : List String}
    (hknown : ∀ id ∈ ordered, id ∈ graph.ids) :
    (∃ nodes, planNodes catalogue graph ordered = .ok nodes ∧
      nodes.map PlanNode.nodeId = ordered ∧
      ∀ planned ∈ nodes, ∃ node ∈ graph.nodes, pinNode catalogue graph node = .ok planned) ∨
    ∃ e, planNodes catalogue graph ordered = .error e ∧
      ∃ node ∈ graph.nodes, node.id ∈ ordered ∧ pinNode catalogue graph node = .error e := by
  induction ordered with
  | nil => exact .inl ⟨[], rfl, rfl, fun _ hmem => absurd hmem List.not_mem_nil⟩
  | cons id ordered ih =>
    obtain ⟨hid, hrest⟩ := List.forall_mem_cons.mp hknown
    obtain ⟨node, hnode, rfl⟩ := List.mem_map.mp hid
    have hsubscript : subscript (nodeById graph) node.id = .ok node :=
      subscript_eq_ok_iff.mpr (get?_nodeById hnodup hnode)
    rw [planNodes] at ih ⊢
    rw [List.mapM_cons, hsubscript]
    cases hpin : pinNode catalogue graph node with
    | error e =>
      refine .inr ⟨e, ?_, node, hnode, List.mem_cons_self, hpin⟩
      change (pinNode catalogue graph node >>= _) = _
      rw [hpin]
      rfl
    | ok planned =>
      have hstep : ∀ rest : Checked (List PlanNode),
          ((do let a ← (Except.ok node : Checked GraphNode); pinNode catalogue graph a) >>=
            fun first => rest >>= fun others => pure (first :: others)) =
          rest >>= fun others => pure (planned :: others) := by
        intro rest
        change (pinNode catalogue graph node >>= _) = _
        rw [hpin]
        rfl
      rw [hstep]
      rcases ih hrest with ⟨nodes, hok, hids, hpinned⟩ | ⟨e, herror, other, hother, hmem, hrefused⟩
      · refine .inl ⟨planned :: nodes, ?_, ?_, List.forall_mem_cons.mpr ⟨⟨node, hnode, hpin⟩, hpinned⟩⟩
        · rw [hok]
          rfl
        · rw [List.map_cons, hids, nodeId_of_pinNode hpin]
      · refine .inr ⟨e, ?_, other, hother, List.mem_cons_of_mem _ hmem, hrefused⟩
        rw [herror]
        rfl

theorem normalizedTargets_eq (hknown : ∀ target ∈ targets, target ∈ graph.ids) :
    normalizedTargets targets graph = .ok (Dict.sortedSet targets) := by
  refine Except.bind_eq_ok_iff.mpr ⟨(), rejectIf_eq_ok_iff.mpr (not_not.mpr ?_), rfl⟩
  refine List.filter_eq_nil_iff.mpr fun id hid => ?_
  rw [decide_eq_true_iff, not_not]
  exact hknown id (Dict.mem_sortedSet.mp hid)

theorem isSelected_sortedSet_iff {id : String} :
    IsSelected graph (Dict.sortedSet targets) id ↔ IsSelected graph targets id := by
  have hempty : Dict.sortedSet targets = [] ↔ targets = [] := by
    simp only [List.eq_nil_iff_forall_not_mem, Dict.mem_sortedSet]
  rw [IsSelected, IsSelected, hempty]
  simp only [Dict.mem_sortedSet]

/-- **A validated graph is compiled exactly**, for any targets that are nodes of it. The compiler
ends; a plan it returns is exact, and an error it raises is the refusal of one selected node by its
descriptor. -/
theorem compilePlan_spec (hvalid : validatePipelineGraphV2 checks graph = some (.ok []))
    (hknown : ∀ target ∈ targets, target ∈ graph.ids) (hrounds : graph.nodes.length ≤ rounds) :
    ∃ result, compilePlan catalogue rounds graph targets = some result ∧
      (∀ plan, result = .ok plan → IsExactPlan catalogue graph targets plan) ∧
      ∀ e, result = .error e → ∃ node ∈ graph.nodes, IsSelected graph targets node.id ∧
        pinNode catalogue graph node = .error e := by
  obtain ⟨hnodup, hends, hacyclic⟩ := isValidated_of_validate hvalid
  have hsorted : ∀ target ∈ Dict.sortedSet targets, target ∈ graph.ids := fun target htarget =>
    hknown target (Dict.mem_sortedSet.mp htarget)
  have hset : (Dict.sortedSet targets).Nodup := by
    rw [Dict.sortedSet, List.Nodup, List.pairwise_map]
    exact (Dict.sorted_canon _).imp fun hlt => hlt.ne
  obtain ⟨selected, hselect, hselected, hmem⟩ := selectedNodeIds_spec hends hset hsorted hrounds
  have hids : ∀ id ∈ selected, id ∈ graph.ids := fun id hid => ((hmem id).mp hid).1
  have hlength : selected.length ≤ rounds := by
    refine (List.subperm_of_subset hselected hids).length_le.trans ?_
    rwa [PipelineGraph.ids, List.length_map]
  obtain ⟨ordered, horder, hperm, hbefore⟩ := topologicalNodeIds_spec hselected hacyclic hlength
  have hcompile : compilePlan catalogue rounds graph targets =
      some ((planNodes catalogue graph ordered).map fun nodes =>
        ⟨Dict.sortedSet targets, nodes, planEdges graph.edges selected⟩) := by
    rw [compilePlan, normalizedTargets_eq hknown]
    dsimp only
    rw [hselect, Option.bind_some, horder]
    rfl
  refine ⟨_, hcompile, ?_⟩
  have hordered : ∀ id ∈ ordered, id ∈ graph.ids := fun id hid => hids id (hperm.mem_iff.mp hid)
  rcases @planNodes_cases catalogue graph hnodup ordered hordered with
    ⟨nodes, hnodes, hnames, hpinned⟩ | ⟨e, herror, node, hnode, hin, hrefused⟩
  · rw [hnodes]
    refine ⟨fun plan hplan => ?_, fun e herror => absurd herror (by simp [Except.map])⟩
    obtain rfl := Except.ok.inj hplan
    refine ⟨fun id => ?_, ?_, fun edge hedge => ?_, ?_, hpinned⟩
    · rw [hnames, hperm.mem_iff, hmem, isSelected_sortedSet_iff]
    · rw [hnames, hperm.nodup_iff]
      exact hselected
    · obtain ⟨hgraph, hinside⟩ := List.mem_filter.mp hedge
      obtain ⟨hsource, htarget⟩ := of_decide_eq_true hinside
      rw [hnames]
      exact hbefore edge.ends (List.mem_map_of_mem hgraph) hsource htarget
    · rw [hnames]
      exact List.filter_congr fun edge _ =>
        decide_eq_decide.mpr (and_congr hperm.mem_iff.symm hperm.mem_iff.symm)
  · rw [herror]
    refine ⟨fun plan hplan => absurd hplan (by simp [Except.map]), fun e' he' => ?_⟩
    obtain rfl := Except.error.inj he'
    exact ⟨node, hnode, isSelected_sortedSet_iff.mp ((hmem _).mp (hperm.mem_iff.mp hin)), hrefused⟩

/-- A dataset that is written out, and one that is not. -/
def twoSources : PipelineGraph where
  nodes := [⟨"a", .source, "source.dataset", 1, []⟩, ⟨"b", .source, "source.dataset", 1, []⟩,
    ⟨"out", .output, "output.dataset", 1, []⟩]
  edges := [⟨"e", "a", "rows", "out", "rows"⟩]
  outputContract := []

/-- Two registered descriptors, both of them executable. -/
def datasetCatalogue : Catalogue where
  pipelineNodeDescriptor id version :=
    if id ∈ ["source.dataset", "output.dataset"] ∧ version = 1
    then some ⟨id, version, .graphV2Executable, "dataset", ⟨1, 0, 0, 60, false⟩⟩ else none
  availableRuntimeCapabilities := ["dataset"]

/-- The checks that are about one node, edge or port, of a graph that has no such fault. -/
def noFaults : LocalChecks := ⟨fun _ => [], fun _ => [], fun _ => [], fun _ => []⟩

theorem validate_twoSources : validatePipelineGraphV2 noFaults twoSources = some (.ok []) := by
  have hacyclic : Acyclic (EdgeOf twoSources.ends) := by
    refine acyclic_of_lt (f := String.length) fun source target hedge => ?_
    obtain ⟨rfl, rfl⟩ := PipelineV2Edge.mk.inj (List.mem_singleton.mp hedge)
    decide
  have hcycle : cycleErrors twoSources.nodes.length (twoSources.ids.map PipelineV2Node.mk)
      twoSources.ends = some (.ok []) :=
    (@cycleErrors_length_eq_iff (twoSources.ids.map PipelineV2Node.mk) twoSources.ends
      (by decide) (by decide)).mpr hacyclic
  have hshape : nodeIdentityErrors [] twoSources.ids = [] := by decide
  have hends : edgeEndpointErrors twoSources = [] := by decide
  rw [validatePipelineGraphV2, hshape, if_neg (by simp [noFaults]), topologyErrors, hends,
    if_neg (by simp)]
  exact congrArg (Option.map _) (congrArg (Option.map _) hcycle)

theorem compilePlan_twoSources :
    ∃ result, compilePlan datasetCatalogue 3 twoSources ["out"] = some result ∧
      (∀ plan, result = .ok plan → IsExactPlan datasetCatalogue twoSources ["out"] plan) ∧
      ∀ e, result = .error e → ∃ node ∈ twoSources.nodes,
        IsSelected twoSources ["out"] node.id ∧ pinNode datasetCatalogue twoSources node = .error e :=
  compilePlan_spec validate_twoSources (by decide) (by decide)

end Plan

end FoundryLite.Pipeline.PlanCompiler
