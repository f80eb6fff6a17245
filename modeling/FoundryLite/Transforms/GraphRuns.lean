import FoundryLite.Library.DepthFirst
import FoundryLite.Library.Transaction
import FoundryLite.Errors

/-!
# Runs of a transform graph

Running a transform with its graph runs the transform, and then depth first every transform that
reads what was written, within a bound on the depth and a bound on the number of runs. A transform is
run once, when it is met first.

So a transform runs after the one that triggered it, but not after the other transforms whose outputs
it reads (`not_isFresh`), and one that is met at the end of a long path is not followed up
again when a shorter path leads to it. What the runs are follows from what a depth-first exploration
visits.

## Main results

* `run_transform_graph_is_depth_first`: which transforms run, and when they run after all those whose
  outputs they read.
-/

namespace FoundryLite.TransformGraph

open DepthFirst Transaction

/-! ### Transforms -/

structure TransformRow where
  apiName : String
  /-- The datasets that are read, under their names in the template. -/
  inputs : List (String × String)
  outputDatasetRef : String
  deriving DecidableEq

/-- The transforms of a tenant, in the order in which they are listed. -/
structure Registry where
  transforms : List TransformRow
  nodup : (transforms.map TransformRow.apiName).Nodup

structure CommitResult where
  datasetRef : String
  versionId : String
  transactionId : String
  rowCount : ℕ
  deriving DecidableEq

structure TransformRunPlan where
  runId : String
  apiName : String
  deriving DecidableEq

/-- `_commit_payload`. -/
structure CommitPayload where
  apiName : String
  transformRunId : String
  datasetRef : String
  versionId : String
  transactionId : String
  rowCount : ℕ
  deriving DecidableEq

def commitPayload (result : CommitResult) (plan : TransformRunPlan) : CommitPayload :=
  ⟨plan.apiName, plan.runId, result.datasetRef, result.versionId, result.transactionId,
    result.rowCount⟩

/-- What a run of one transform does to the rest of the system. -/
structure Runtime (σ : Type) where
  /-- The authorisation of a run and the write guard. -/
  require : String → Transaction FoundryLiteError σ Unit
  /-- A run of a registered transform answers the run's identifier and the version that it
  committed, with the transaction and the number of rows. -/
  execute : TransformRow → Transaction FoundryLiteError σ (String × String × String × ℕ)
  /-- The audit event and the relation between the two runs. -/
  recordTrigger : TransformRunPlan → TransformRunPlan → CommitResult → CommitResult →
    Transaction FoundryLiteError σ Unit

variable {σ : Type}

/-- `run_transform_internal`, of a transform by its name. -/
def runTransform (runtime : Runtime σ) (registry : Registry) (apiName : String) :
    Transaction FoundryLiteError σ (CommitResult × TransformRunPlan) := do
  runtime.require apiName
  let row ← Transaction.requireSome (registry.transforms.find? fun row => row.apiName = apiName)
    (notFound "transform not found" [("api_name", .str apiName)])
  let (runId, versionId, transactionId, rowCount) ← runtime.execute row
  pure (⟨row.outputDatasetRef, versionId, transactionId, rowCount⟩, ⟨runId, row.apiName⟩)

/-- `_downstream_transforms`. -/
def downstreamTransforms (registry : Registry) (datasetRef : String) : List TransformRow :=
  registry.transforms.filter fun row => (row.inputs.map Prod.snd).contains datasetRef

/-- What was run so far below the root, and the names that were met. -/
structure Progress where
  downstream : List CommitPayload
  visited : List String

/-- `_run_downstream_graph`, with one less than the depth that remains. -/
def runDownstreamGraph (runtime : Runtime σ) (registry : Registry) (maxRuns : ℕ) :
    ℕ → TransformRunPlan → CommitResult → Progress → Transaction FoundryLiteError σ Progress
  | 0, _, _, progress => pure progress
  | depth + 1, parentPlan, parentResult, progress =>
    if maxRuns ≤ progress.downstream.length then pure progress
    else
      (downstreamTransforms registry parentResult.datasetRef).foldlM (fun progress row => do
        if row.apiName ∈ progress.visited ∨ maxRuns ≤ progress.downstream.length then
          return progress
        let (result, plan) ← runTransform runtime registry row.apiName
        runtime.recordTrigger parentPlan plan parentResult result
        runDownstreamGraph runtime registry maxRuns depth plan result
          ⟨progress.downstream ++ [commitPayload result plan],
            progress.visited ++ [row.apiName]⟩) progress

/-- `validate_transform_graph_bounds`. -/
def validateTransformGraphBounds (maxDepth maxRuns : ℕ) : Transaction FoundryLiteError σ Unit :=
  Transaction.require (1 ≤ maxDepth && maxDepth ≤ 7 && 1 ≤ maxRuns && maxRuns ≤ 50)
    ⟨.validationFailed, "transform graph bounds must be depth 1-7 and runs 1-50", []⟩

/-- `run_transform_graph`. -/
def runTransformGraph (runtime : Runtime σ) (registry : Registry) (apiName : String)
    (maxDepth maxRuns : ℕ) :
    Transaction FoundryLiteError σ (CommitPayload × List CommitPayload) := do
  validateTransformGraphBounds maxDepth maxRuns
  let (rootResult, rootPlan) ← runTransform runtime registry apiName
  let progress ← runDownstreamGraph runtime registry maxRuns (maxDepth - 1) rootPlan rootResult
    ⟨[], [apiName]⟩
  pure (commitPayload rootResult rootPlan, progress.downstream)

/-! ### What runs -/

/-- The names of the transforms that read the output of a transform. -/
def readers (registry : Registry) (apiName : String) : List String :=
  match registry.transforms.find? fun row => row.apiName = apiName with
  | some row => (downstreamTransforms registry row.outputDatasetRef).map TransformRow.apiName
  | none => []

/-- The names of the transforms that ran, in order. -/
def ran (root : CommitPayload) (downstream : List CommitPayload) : List String :=
  (root :: downstream).map CommitPayload.apiName

/-- Every transform within the bound runs once, after all those whose outputs it reads. -/
structure IsFresh (registry : Registry) (root : String) (maxDepth : ℕ) (names : List String) :
    Prop where
  mem_iff : ∀ name, name ∈ names ↔ ∃ k, k < maxDepth ∧ Steps (readers registry) k root name
  nodup : names.Nodup
  ordered : ∀ p ∈ names, ∀ name ∈ names, name ∈ readers registry p → Earlier names p name

/-- Transforms run depth first. -/
structure IsDepthFirst (registry : Registry) (root : String) (maxDepth : ℕ) (names : List String) :
    Prop where
  within : ∀ name ∈ names, ∃ k, k < maxDepth ∧ Steps (readers registry) k root name
  complete : ∀ name, Leads (readers registry) root name →
    (∀ k, Steps (readers registry) k root name → k < maxDepth) → name ∈ names
  nodup : names.Nodup
  triggered : ∀ name ∈ names, name ≠ root →
    ∃ p, name ∈ readers registry p ∧ Earlier names p name
  ordered_iff : (∀ k name, Steps (readers registry) k root name → k < maxDepth) →
    ((∀ p ∈ names, ∀ name ∈ names, name ∈ readers registry p → Earlier names p name) ↔
      ParentsChained (readers registry) names)

variable {runtime : Runtime σ} {registry : Registry} {s s' : σ}

theorem runTransform_eq_ok {apiName : String} {result : CommitResult} {plan : TransformRunPlan}
    (h : runTransform runtime registry apiName s = .ok ((result, plan), s')) :
    plan.apiName = apiName ∧
      readers registry apiName =
        (downstreamTransforms registry result.datasetRef).map TransformRow.apiName := by
  simp only [runTransform, bind_eq_ok_iff, requireSome_eq_ok_iff,
    pure_eq_ok_iff, Prod.mk.injEq] at h
  obtain ⟨-, _, -, _, _, ⟨row, hfind, rfl, rfl⟩, _, _, -, ⟨rfl, rfl⟩, -⟩ := h
  have hname : row.apiName = apiName := by simpa using List.find?_some hfind
  exact ⟨hname, by rw [readers, hfind]⟩

/-- The names that a run below the root has met, and those of what it ran, grow together. -/
structure Follows (maxRuns : ℕ) (progress progress' : Progress) (visited : List String) : Prop where
  length_le : progress.downstream.length ≤ progress'.downstream.length
  visited_eq : progress'.downstream.length < maxRuns → progress'.visited = visited
  names : ∃ added, progress'.downstream = progress.downstream ++ added ∧
    progress'.visited = progress.visited ++ added.map CommitPayload.apiName

theorem Follows.refl {maxRuns : ℕ} (progress : Progress) :
    Follows maxRuns progress progress progress.visited :=
  ⟨le_refl _, fun _ => rfl, [], by simp, by simp⟩

theorem Follows.trans {maxRuns : ℕ} {progress middle progress' : Progress}
    {f : List String → List String} {visited : List String}
    (h : Follows maxRuns progress middle visited)
    (h' : Follows maxRuns middle progress' (f middle.visited)) :
    Follows maxRuns progress progress' (f visited) := by
  obtain ⟨added, hadded, hvisited⟩ := h.names
  obtain ⟨added', hadded', hvisited'⟩ := h'.names
  refine ⟨h.length_le.trans h'.length_le, fun hlt => ?_, added ++ added', ?_, ?_⟩
  · rw [h'.visited_eq hlt, h.visited_eq (lt_of_le_of_lt h'.length_le hlt)]
  · rw [hadded', hadded, List.append_assoc]
  · rw [hvisited', hvisited, List.map_append, List.append_assoc]

/-- **Runs below the root are a depth-first exploration**, if the bound on their number is not
met. -/
theorem runDownstreamGraph_eq_ok {maxRuns depth : ℕ} {plan : TransformRunPlan}
    {result : CommitResult} {progress progress' : Progress} {apiName : String}
    (hreaders : readers registry apiName =
      (downstreamTransforms registry result.datasetRef).map TransformRow.apiName)
    (h : runDownstreamGraph runtime registry maxRuns depth plan result progress s =
      .ok (progress', s')) :
    Follows maxRuns progress progress' (explore (readers registry) depth apiName progress.visited) := by
  induction depth generalizing plan result progress progress' apiName s s' with
  | zero =>
    obtain ⟨rfl, rfl⟩ := Prod.mk.inj (pure_eq_ok_iff.mp h)
    exact .refl progress
  | succ depth ih =>
    rw [runDownstreamGraph] at h
    split_ifs at h with hcap
    · obtain ⟨rfl, rfl⟩ := Prod.mk.inj (pure_eq_ok_iff.mp h)
      exact ⟨le_refl _, fun hlt => absurd hcap (by omega), [], by simp, by simp⟩
    · rw [explore_succ, hreaders]
      clear hcap hreaders
      generalize downstreamTransforms registry result.datasetRef = rows at h
      induction rows generalizing progress s with
      | nil =>
        obtain ⟨rfl, rfl⟩ := Prod.mk.inj (pure_eq_ok_iff.mp h)
        exact .refl progress
      | cons row rows ihrows =>
        rw [List.foldlM_cons, bind_eq_ok_iff] at h
        obtain ⟨middle, s₁, hbody, hrows⟩ := h
        have hbody' : Follows maxRuns progress middle
            (visit (readers registry) depth progress.visited row.apiName) := by
          split_ifs at hbody with hskip
          · obtain ⟨rfl, rfl⟩ := Prod.mk.inj (pure_eq_ok_iff.mp hbody)
            refine ⟨le_refl _, fun hlt => ?_, [], by simp, by simp⟩
            rw [visit, if_pos (hskip.resolve_right (by omega))]
          · simp only [bind_eq_ok_iff] at hbody
            obtain ⟨⟨result', plan'⟩, s₂, hrun, _, s₃, -, hchild⟩ := hbody
            obtain ⟨hname, hreaders'⟩ := runTransform_eq_ok hrun
            have hchild' := ih hreaders' hchild
            obtain ⟨added, hadded, hvisited⟩ := hchild'.names
            refine ⟨?_, fun hlt => ?_, commitPayload result' plan' :: added, ?_, ?_⟩
            · have := hchild'.length_le
              simp only [List.length_append] at this
              omega
            · rw [visit, if_neg fun hmem => hskip (.inl hmem), hchild'.visited_eq hlt]
            · rw [hadded, List.append_assoc]
              rfl
            · rw [hvisited, List.append_assoc, List.map_cons, commitPayload, hname]
              rfl
        exact hbody'.trans (f := fun visited =>
          (rows.map TransformRow.apiName).foldl (visit (readers registry) depth) visited)
          (ihrows hrows)

/-- **Transform graph runs are depth first.** They run what is within the bound on every path, and
nothing that is not on any, each transform once and after one whose output it reads; where the bound
cuts nothing off, each runs after all of these exactly if of any two of them one has a reader that is
listed before it and leads to the other. -/
theorem run_transform_graph_is_depth_first {root : String} {maxDepth maxRuns : ℕ}
    {payload : CommitPayload} {downstream : List CommitPayload}
    (hacyclic : Relation.Acyclic (Edge (readers registry)))
    (h : runTransformGraph runtime registry root maxDepth maxRuns s =
      .ok ((payload, downstream), s')) (hcap : downstream.length < maxRuns) :
    IsDepthFirst registry root maxDepth (ran payload downstream) := by
  simp only [runTransformGraph, validateTransformGraphBounds, bind_eq_ok_iff,
    require_eq_ok_iff, pure_eq_ok_iff, Prod.mk.injEq] at h
  obtain ⟨_, _, ⟨hbounds, -, rfl⟩, ⟨rootResult, rootPlan⟩, s₁, hrun, progress, s₂, hbelow,
    ⟨rfl, rfl⟩, -⟩ := h
  have hdepth : maxDepth - 1 + 1 = maxDepth := by
    simp only [Bool.and_eq_true, decide_eq_true_eq] at hbounds
    omega
  obtain ⟨hname, hreaders⟩ := runTransform_eq_ok hrun
  have hfollows := runDownstreamGraph_eq_ok hreaders hbelow
  have hnames : ran (commitPayload rootResult rootPlan) progress.downstream =
      explore (readers registry) (maxDepth - 1) root [root] := by
    obtain ⟨added, hadded, hvisited⟩ := hfollows.names
    rw [← hfollows.visited_eq hcap, hvisited, hadded]
    simp [ran, commitPayload, hname]
  rw [hnames]
  clear hnames hfollows hbelow hcap
  have hlt : ∀ {k}, k ≤ maxDepth - 1 ↔ k < maxDepth := by omega
  have hwithin : ∀ name ∈ explore (readers registry) (maxDepth - 1) root [root],
      ∃ k, k < maxDepth ∧ Steps (readers registry) k root name := by
    intro name hmem
    rcases exists_steps_of_mem_explore hmem with hroot | ⟨k, hk, hsteps⟩
    · exact ⟨0, by omega, (List.mem_singleton.mp hroot).symm⟩
    · exact ⟨k, hlt.mp hk, hsteps⟩
  have hcomplete : ∀ name, Leads (readers registry) root name →
      (∀ k, Steps (readers registry) k root name → k < maxDepth) →
        name ∈ explore (readers registry) (maxDepth - 1) root [root] := by
    intro name hleads hall
    rcases Relation.reflTransGen_iff_eq_or_transGen.mp hleads with rfl | htrans
    · exact prefix_explore.subset (by simp)
    · refine mem_explore_of_forall_steps hacyclic (fun k hk => hlt.mpr (hall k hk)) htrans ?_
      intro x hx hrx
      exact absurd (List.mem_singleton.mp hx ▸ hrx) (hacyclic root)
  refine ⟨hwithin, hcomplete, ?_, ?_, ?_⟩
  · exact nodup_explore (List.nodup_singleton root)
  · intro name hmem hne
    exact exists_earlier_parent (by simp) hmem (by simpa using hne)
  · intro hall
    rw [← forall_earlier_iff hacyclic fun k name hk => hlt.mpr (hall k name hk)]
    refine ⟨fun hordered p hp name hedge => ?_, fun hordered p hp name _ hedge =>
      hordered p hp name hedge⟩
    obtain ⟨k, -, hk⟩ := hwithin p hp
    have hleads := (leads_iff_exists_steps.mpr ⟨k, hk⟩).tail hedge
    exact hordered p hp name (hcomplete name hleads fun k hk => hall k name hk) hedge

/-! ### A diamond -/

/-- A runtime in which every run succeeds. -/
def quietRuntime : Runtime Unit where
  require _ := pure ()
  execute row := pure (row.apiName, row.apiName, row.apiName, 0)
  recordTrigger _ _ _ _ := pure ()

/-- Two transforms read the orders, and a third one reads what both write. -/
def diamond : Registry where
  transforms :=
    [⟨"clean_orders", [("raw", "ds.raw")], "ds.orders"⟩,
     ⟨"daily", [("orders", "ds.orders")], "ds.daily"⟩,
     ⟨"report", [("daily", "ds.daily"), ("weekly", "ds.weekly")], "ds.report"⟩,
     ⟨"weekly", [("orders", "ds.orders")], "ds.weekly"⟩]
  nodup := by decide

theorem edges_diamond : ∀ row ∈ diamond.transforms,
    ∀ b ∈ (downstreamTransforms diamond row.outputDatasetRef).map TransformRow.apiName,
      ["clean_orders", "daily", "weekly", "report"].idxOf row.apiName <
        ["clean_orders", "daily", "weekly", "report"].idxOf b := by
  decide +kernel

theorem acyclic_diamond : Relation.Acyclic (Edge (readers diamond)) := by
  refine Relation.acyclic_of_lt (f := ["clean_orders", "daily", "weekly", "report"].idxOf) ?_
  intro a b h
  unfold Edge readers at h
  split at h
  · next row hfind =>
    have hname : row.apiName = a := by simpa using List.find?_some hfind
    exact hname ▸ edges_diamond row (List.mem_of_find?_eq_some hfind) b h
  · exact absurd h (by simp)

theorem runs_diamond :
    (runTransformGraph quietRuntime diamond "clean_orders" 7 50 ()).map
        (fun result => (ran result.1.1 result.1.2, result.1.2.length)) =
      .ok (["clean_orders", "daily", "report", "weekly"], 3) := by
  decide +kernel

theorem exists_run_diamond : ∃ payload downstream,
    runTransformGraph quietRuntime diamond "clean_orders" 7 50 () =
        .ok ((payload, downstream), ()) ∧
      ran payload downstream = ["clean_orders", "daily", "report", "weekly"] ∧
      downstream.length = 3 := by
  have hruns := runs_diamond
  cases hrun : runTransformGraph quietRuntime diamond "clean_orders" 7 50 () with
  | error err => rw [hrun] at hruns; exact absurd hruns (by simp [Except.map])
  | ok result =>
    rw [hrun] at hruns
    obtain ⟨hnames, hlength⟩ := Prod.mk.inj (Except.ok.inj hruns)
    exact ⟨result.1.1, result.1.2, rfl, hnames, hlength⟩

/-- The report is run before the weekly figures that it reads. -/
theorem isDepthFirst_diamond : ∃ payload downstream,
    ran payload downstream = ["clean_orders", "daily", "report", "weekly"] ∧
      IsDepthFirst diamond "clean_orders" 7 (ran payload downstream) := by
  obtain ⟨payload, downstream, hrun, hnames, hlength⟩ := exists_run_diamond
  exact ⟨payload, downstream, hnames,
    run_transform_graph_is_depth_first acyclic_diamond hrun (by omega)⟩

/-- **A run may read outputs that are then written again.** -/
theorem not_isFresh : ¬ ∀ (σ : Type) (runtime : Runtime σ) registry root maxDepth maxRuns payload
    downstream s s', Relation.Acyclic (Edge (readers registry)) →
      runTransformGraph runtime registry root maxDepth maxRuns s =
        .ok ((payload, downstream), s') → downstream.length < maxRuns →
      IsFresh registry root maxDepth (ran payload downstream) := by
  intro hall
  obtain ⟨payload, downstream, hrun, hnames, hlength⟩ := exists_run_diamond
  have hfresh := hall Unit quietRuntime diamond "clean_orders" 7 50 payload downstream () ()
    acyclic_diamond hrun (by omega)
  rw [hnames] at hfresh
  have hordered := hfresh.ordered "weekly" (by decide) "report" (by decide) (by decide +kernel)
  exact absurd hordered (by unfold Earlier; decide +kernel)

end FoundryLite.TransformGraph
