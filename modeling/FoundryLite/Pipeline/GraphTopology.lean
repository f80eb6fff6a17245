import FoundryLite.Errors
import FoundryLite.Library.Acyclic

/-!
# Cycles of a pipeline graph

The topology check of a pipeline graph takes away one node after another that no remaining edge
leads to, and reports a cycle when it does not get through all of them. It never builds the remaining
graph: it keeps, for each node, the number of edges from nodes that are still there.

With parallel edges a node is counted once for each of them, and it is taken up when the last one is
released. So the counts say at every moment what is left of the graph (`Inv`).

## Main results

* `cycleErrors_eq_nil_iff_acyclic`: the check ends, without a missing key, and reports nothing
  exactly when the graph is acyclic.
-/

namespace FoundryLite.Pipeline.GraphTopology

open Relation

/-! ### The check -/

structure PipelineV2Node where
  id : String
  deriving DecidableEq

structure PipelineV2Edge where
  sourceNodeId : String
  targetNodeId : String
  deriving DecidableEq

/-- A dictionary read by subscript. -/
def subscript {β : Type} (d : Dict String β) (key : String) : Checked β :=
  match d.get? key with
  | some value => pure value
  | none => throw (libraryError "KeyError")

/-- The number of incoming edges, and the targets, of each node. -/
structure Counts where
  incoming : Dict String ℤ
  outgoing : Dict String (List String)

def noCounts (nodes : List PipelineV2Node) : Counts where
  incoming := Dict.ofList (nodes.map fun node => (node.id, 0))
  outgoing := Dict.ofList (nodes.map fun node => (node.id, []))

def countEdge (counts : Counts) (edge : PipelineV2Edge) : Checked Counts := do
  let count ← subscript counts.incoming edge.targetNodeId
  let targets ← subscript counts.outgoing edge.sourceNodeId
  return ⟨counts.incoming.insert edge.targetNodeId (count + 1),
    counts.outgoing.insert edge.sourceNodeId (targets ++ [edge.targetNodeId])⟩

/-- The nodes to take away next, and the counts. -/
structure Elimination where
  ready : List String
  incoming : Dict String ℤ

/-- One edge to the target is gone. -/
def release (s : Elimination) (target : String) : Checked Elimination := do
  let count ← subscript s.incoming target
  return ⟨if count - 1 = 0 then s.ready ++ [target] else s.ready,
    s.incoming.insert target (count - 1)⟩

def consumeNode (outgoing : Dict String (List String)) (current : String) (s : Elimination) :
    Checked Elimination := do
  let targets ← subscript outgoing current
  (targets.mergeSort (· ≤ ·)).foldlM release s

/-- The loop; `none` when it is given too few rounds. -/
def consumeTopology (outgoing : Dict String (List String)) :
    ℕ → Elimination → ℕ → Option (Checked ℕ)
  | _, ⟨[], _⟩, consumed => some (pure consumed)
  | 0, ⟨_ :: _, _⟩, _ => none
  | rounds + 1, ⟨current :: ready, incoming⟩, consumed =>
    match consumeNode outgoing current ⟨ready, incoming⟩ with
    | .ok s => consumeTopology outgoing rounds s (consumed + 1)
    | .error e => some (throw e)

def readyNodes (incoming : Dict String ℤ) : List String :=
  ((incoming.entries.filter fun entry => entry.2 = 0).map Prod.fst).mergeSort (· ≤ ·)

def cycleErrors (rounds : ℕ) (nodes : List PipelineV2Node) (edges : List PipelineV2Edge) :
    Option (Checked (List Mapping)) :=
  match edges.foldlM countEdge (noCounts nodes) with
  | .error e => some (throw e)
  | .ok counts =>
    (consumeTopology counts.outgoing rounds ⟨readyNodes counts.incoming, counts.incoming⟩ 0).map
      fun result => result.map fun consumed =>
        if consumed = nodes.length then []
        else [[("code", .str "cycle_detected"), ("node_count", .int nodes.length)]]

/-- The graph: from a node to another along an edge. -/
def EdgeOf (edges : List PipelineV2Edge) (source target : String) : Prop :=
  ⟨source, target⟩ ∈ edges

/-! ### Counting -/

theorem subscript_eq_ok_iff {β : Type} {d : Dict String β} {key : String} {value : β} :
    subscript d key = .ok value ↔ d.get? key = some value := by
  rw [subscript]
  cases d.get? key <;> simp

section Counting

variable {ids : List String} {edges : List PipelineV2Edge}

/-- The edges to a node whose sources are still there. -/
def pending (edges : List PipelineV2Edge) (done : List String) (node : String) : ℕ :=
  edges.countP fun edge => decide (edge.targetNodeId = node ∧ edge.sourceNodeId ∉ done)

/-- The targets of a node. -/
def targetsOf (edges : List PipelineV2Edge) (node : String) : List String :=
  (edges.filter fun edge => edge.sourceNodeId = node).map PipelineV2Edge.targetNodeId

theorem pending_eq_zero_iff {done : List String} {node : String} :
    pending edges done node = 0 ↔
      ∀ edge ∈ edges, edge.targetNodeId = node → edge.sourceNodeId ∈ done := by
  rw [pending, List.countP_eq_zero]
  simp only [decide_eq_true_eq, not_and, not_not]

/-- The edges to a node are those from one source and those from the others. -/
theorem pending_eq_add {done : List String} {current : String} (h : current ∉ done)
    (node : String) :
    pending edges done node
      = (targetsOf edges current).count node + pending edges (done ++ [current]) node := by
  induction edges with
  | nil => rfl
  | cons edge edges ih =>
    simp only [pending, targetsOf] at ih ⊢
    rw [List.countP_cons, List.countP_cons, List.filter_cons, ih]
    by_cases hsource : edge.sourceNodeId = current
    · have hdone : edge.sourceNodeId ∉ done := hsource ▸ h
      by_cases htarget : edge.targetNodeId = node <;>
        simp [hsource, htarget, h]
      omega
    · by_cases htarget : edge.targetNodeId = node <;>
        by_cases hdone : edge.sourceNodeId ∈ done <;>
        simp [hsource, htarget, hdone]
      omega

/-- What the counts are after some of the edges. -/
structure Counted (ids : List String) (edges : List PipelineV2Edge) (counts : Counts) : Prop where
  incoming : ∀ node, counts.incoming.get? node
    = if node ∈ ids then some (pending edges [] node : ℤ) else none
  outgoing : ∀ node, counts.outgoing.get? node
    = if node ∈ ids then some (targetsOf edges node) else none

theorem get?_ofList_map_id {β : Type} (nodes : List PipelineV2Node) (value : β) (key : String) :
    (Dict.ofList (nodes.map fun node => (node.id, value))).get? key
      = if key ∈ nodes.map PipelineV2Node.id then some value else none := by
  rw [Dict.get?_ofList]
  induction nodes with
  | nil => rfl
  | cons node nodes ih =>
    rw [List.map_cons, Dict.lookup_cons_ite, ih, List.map_cons]
    by_cases hkey : key = node.id <;> simp [hkey]

theorem counted_noCounts (nodes : List PipelineV2Node) :
    Counted (nodes.map PipelineV2Node.id) [] (noCounts nodes) where
  incoming node := get?_ofList_map_id nodes 0 node
  outgoing node := get?_ofList_map_id nodes [] node

theorem Counted.countEdge {counts : Counts} (h : Counted ids edges counts)
    {edge : PipelineV2Edge} (hsource : edge.sourceNodeId ∈ ids) (htarget : edge.targetNodeId ∈ ids) :
    ∃ counts', GraphTopology.countEdge counts edge = .ok counts' ∧
      Counted ids (edges ++ [edge]) counts' := by
  have hcount := (h.incoming edge.targetNodeId).trans (if_pos htarget)
  have htargets := (h.outgoing edge.sourceNodeId).trans (if_pos hsource)
  refine ⟨⟨counts.incoming.insert edge.targetNodeId (pending edges [] edge.targetNodeId + 1),
    counts.outgoing.insert edge.sourceNodeId
      (targetsOf edges edge.sourceNodeId ++ [edge.targetNodeId])⟩, ?_, fun node => ?_, fun node => ?_⟩
  · rw [GraphTopology.countEdge, Except.bind_eq_ok_iff]
    refine ⟨_, subscript_eq_ok_iff.mpr hcount, Except.bind_eq_ok_iff.mpr ?_⟩
    exact ⟨_, subscript_eq_ok_iff.mpr htargets, rfl⟩
  · rw [Dict.get?_insert]
    by_cases hnode : node = edge.targetNodeId
    · subst hnode
      simp [pending, htarget]
    · rw [if_neg hnode, h.incoming]
      simp [pending, Ne.symm hnode]
  · rw [Dict.get?_insert]
    by_cases hnode : node = edge.sourceNodeId
    · subst hnode
      simp [targetsOf, hsource]
    · rw [if_neg hnode, h.outgoing]
      simp [targetsOf, Ne.symm hnode]

theorem Counted.foldlM {counts : Counts} (later : List PipelineV2Edge)
    (h : Counted ids edges counts)
    (hlater : ∀ edge ∈ later, edge.sourceNodeId ∈ ids ∧ edge.targetNodeId ∈ ids) :
    ∃ counts', later.foldlM GraphTopology.countEdge counts = .ok counts' ∧
      Counted ids (edges ++ later) counts' := by
  induction later generalizing edges counts with
  | nil => exact ⟨counts, rfl, by rwa [List.append_nil]⟩
  | cons edge later ih =>
    obtain ⟨⟨hsource, htarget⟩, hrest⟩ := List.forall_mem_cons.mp hlater
    obtain ⟨counts₁, hstep, hcounted⟩ := h.countEdge hsource htarget
    obtain ⟨counts', hfold, hall⟩ := ih hcounted hrest
    refine ⟨counts', ?_, by rwa [List.append_assoc] at hall⟩
    rw [List.foldlM_cons, hstep]
    exact hfold

end Counting

/-! ### Elimination -/

section Elimination

variable {ids : List String} {edges : List PipelineV2Edge} {done : List String} {s : Elimination}

/-- **What the counts say** while the edges to `released` are still to be released. The nodes that are
gone come in the order in which they went, and the ready ones after them. -/
structure Inv (ids : List String) (edges : List PipelineV2Edge) (done released : List String)
    (s : Elimination) : Prop where
  nodup : (done ++ s.ready).Nodup
  subset : ∀ node ∈ done ++ s.ready, node ∈ ids
  counts : ∀ node, s.incoming.get? node
    = if node ∈ ids then some ((released.count node + pending edges done node : ℕ) : ℤ) else none
  free : ∀ node ∈ ids,
    node ∈ done ++ s.ready ↔ released.count node + pending edges done node = 0
  /-- Every edge to a node that is gone or ready comes from a node before it. -/
  ordered : ∀ edge ∈ edges, edge.targetNodeId ∈ done ++ s.ready →
    (done ++ s.ready).idxOf edge.sourceNodeId < (done ++ s.ready).idxOf edge.targetNodeId

/-- **One edge is released.** -/
theorem Inv.release {target : String} {released : List String}
    (h : Inv ids edges done (target :: released) s) (htarget : target ∈ ids) :
    ∃ s', GraphTopology.release s target = .ok s' ∧ Inv ids edges done released s' := by
  have hcount := (h.counts target).trans (if_pos htarget)
  rw [List.count_cons_self] at hcount
  have hother : ∀ node, node ≠ target →
      (target :: released).count node = released.count node := fun node hne =>
    List.count_cons_of_ne hne.symm
  have hwaits : target ∉ done ++ s.ready := by
    rw [h.free target htarget, List.count_cons_self]
    omega
  refine ⟨_, Except.bind_eq_ok_iff.mpr ⟨_, subscript_eq_ok_iff.mpr hcount, rfl⟩, ?_⟩
  have hcounts : ∀ node, (s.incoming.insert target
      (((released.count target + 1 + pending edges done target : ℕ) : ℤ) - 1)).get? node
        = if node ∈ ids then some ((released.count node + pending edges done node : ℕ) : ℤ)
          else none := by
    intro node
    rw [Dict.get?_insert]
    by_cases hnode : node = target
    · subst hnode
      rw [if_pos rfl, if_pos htarget, Option.some.injEq]
      push_cast
      omega
    · rw [if_neg hnode, h.counts, hother node hnode]
  by_cases hzero : released.count target + pending edges done target = 0
  · -- The last edge to the target is gone, and the target comes at the end of those that are ready.
    have hif : (((released.count target + 1 + pending edges done target : ℕ) : ℤ) - 1) = 0 := by
      omega
    simp only [hif, if_true] at hcounts ⊢
    refine ⟨?_, ?_, hcounts, fun node hnode => ?_, fun edge hedge hmem => ?_⟩
    · rw [← List.append_assoc, ← List.concat_eq_append]
      exact List.Nodup.concat hwaits h.nodup
    · rw [← List.append_assoc]
      intro node hmem
      rcases List.mem_append.mp hmem with hmem | hmem
      · exact h.subset node hmem
      · rwa [List.mem_singleton.mp hmem]
    · rw [← List.append_assoc, List.mem_append, List.mem_singleton]
      by_cases hself : node = target
      · subst hself
        exact iff_of_true (.inr rfl) hzero
      · rw [or_iff_left hself, h.free node hnode, hother node hself]
    · rw [← List.append_assoc] at hmem ⊢
      by_cases hself : edge.targetNodeId = target
      · have hsource : edge.sourceNodeId ∈ done ++ s.ready :=
          List.mem_append_left _ (pending_eq_zero_iff.mp (Nat.eq_zero_of_add_eq_zero_left hzero)
            edge hedge hself)
        rw [List.idxOf_append_of_mem hsource, hself, List.idxOf_append_of_notMem hwaits]
        exact Nat.lt_add_right _ (List.idxOf_lt_length_of_mem hsource)
      · have hold : edge.targetNodeId ∈ done ++ s.ready :=
          (List.mem_append.mp hmem).resolve_right fun hlast => hself (List.mem_singleton.mp hlast)
        have hlt := h.ordered edge hedge hold
        have hsource : edge.sourceNodeId ∈ done ++ s.ready :=
          List.idxOf_lt_length_iff.mp (hlt.trans (List.idxOf_lt_length_of_mem hold))
        rwa [List.idxOf_append_of_mem hsource, List.idxOf_append_of_mem hold]
  · have hif : ¬ (((released.count target + 1 + pending edges done target : ℕ) : ℤ) - 1) = 0 := by
      omega
    simp only [hif, if_false] at hcounts ⊢
    refine ⟨h.nodup, h.subset, hcounts, fun node hnode => ?_, h.ordered⟩
    by_cases hself : node = target
    · subst hself
      exact iff_of_false hwaits hzero
    · rw [h.free node hnode, hother node hself]

/-- The edges to a list of nodes are released one at a time. -/
theorem Inv.foldlM {release : Elimination → String → Checked Elimination}
    (hrelease : ∀ {target released s}, Inv ids edges done (target :: released) s → target ∈ ids →
      ∃ s', release s target = .ok s' ∧ Inv ids edges done released s')
    {released : List String} (h : Inv ids edges done released s)
    (hreleased : ∀ target ∈ released, target ∈ ids) :
    ∃ s', released.foldlM release s = .ok s' ∧ Inv ids edges done [] s' := by
  induction released generalizing s with
  | nil => exact ⟨s, rfl, h⟩
  | cons target released ih =>
    obtain ⟨htarget, hrest⟩ := List.forall_mem_cons.mp hreleased
    obtain ⟨s₁, hstep, hinv⟩ := hrelease h htarget
    obtain ⟨s', hfold, hall⟩ := ih hinv hrest
    refine ⟨s', ?_, hall⟩
    rw [List.foldlM_cons, hstep]
    exact hfold

/-- A node that is taken away leaves its edges to be released. -/
theorem Inv.taken {current : String} {ready : List String} {incoming : Dict String ℤ}
    (h : Inv ids edges done [] ⟨current :: ready, incoming⟩) :
    Inv ids edges (done ++ [current]) ((targetsOf edges current).mergeSort (· ≤ ·))
      ⟨ready, incoming⟩ := by
  have hgone : current ∉ done := by
    have hnodup := h.nodup
    rw [List.nodup_append] at hnodup
    exact fun hmem => hnodup.2.2 current hmem current List.mem_cons_self rfl
  have hlist : done ++ current :: ready = done ++ [current] ++ ready := by simp
  have hcount : ∀ node, ([] : List String).count node + pending edges done node
      = ((targetsOf edges current).mergeSort (· ≤ ·)).count node
        + pending edges (done ++ [current]) node := by
    intro node
    rw [(List.mergeSort_perm _ _).count_eq, List.count_nil, Nat.zero_add, pending_eq_add hgone]
  constructor
  · exact hlist ▸ h.nodup
  · exact hlist ▸ h.subset
  · intro node
    rw [← hcount]
    exact h.counts node
  · intro node hnode
    rw [← hcount, ← hlist]
    exact h.free node hnode
  · exact hlist ▸ h.ordered

theorem forall_mem_targetsOf (hedges : ∀ edge ∈ edges, edge.targetNodeId ∈ ids) (current : String) :
    ∀ target ∈ (targetsOf edges current).mergeSort (· ≤ ·), target ∈ ids := by
  intro target htarget
  obtain ⟨edge, hedge, rfl⟩ := List.mem_map.mp (List.mem_mergeSort.mp htarget)
  exact hedges edge (List.mem_of_mem_filter hedge)

/-- **One node is taken away.** -/
theorem Inv.take {release : Elimination → String → Checked Elimination}
    {outgoing : Dict String (List String)} {current : String} {ready : List String}
    {incoming : Dict String ℤ}
    (hrelease : ∀ {done target released s}, Inv ids edges done (target :: released) s →
      target ∈ ids → ∃ s', release s target = .ok s' ∧ Inv ids edges done released s')
    (houtgoing : ∀ node ∈ ids, outgoing.get? node = some (targetsOf edges node))
    (hedges : ∀ edge ∈ edges, edge.targetNodeId ∈ ids)
    (h : Inv ids edges done [] ⟨current :: ready, incoming⟩) :
    ∃ s', (subscript outgoing current >>= fun targets =>
        (targets.mergeSort (· ≤ ·)).foldlM release ⟨ready, incoming⟩) = .ok s' ∧
      Inv ids edges (done ++ [current]) [] s' := by
  have hcurrent : current ∈ ids := h.subset current (by simp)
  obtain ⟨s', hfold, hinv⟩ := h.taken.foldlM hrelease (forall_mem_targetsOf hedges current)
  exact ⟨s', Except.bind_eq_ok_iff.mpr
    ⟨_, subscript_eq_ok_iff.mpr (houtgoing current hcurrent), hfold⟩, hinv⟩

/-- **A loop that takes the nodes away ends**, with nothing ready. -/
theorem Inv.exists_end {α : Type} (loop : ℕ → List String → Elimination → α)
    (hloop : ∀ {done current ready incoming} (rounds : ℕ),
      Inv ids edges done [] ⟨current :: ready, incoming⟩ →
        ∃ s', Inv ids edges (done ++ [current]) [] s' ∧
          loop (rounds + 1) done ⟨current :: ready, incoming⟩ = loop rounds (done ++ [current]) s')
    (rounds : ℕ) (h : Inv ids edges done [] s) (hrounds : ids.length ≤ rounds + done.length) :
    ∃ left gone incoming, loop rounds done s = loop left gone ⟨[], incoming⟩ ∧
      Inv ids edges gone [] ⟨[], incoming⟩ := by
  induction rounds generalizing done s with
  | zero =>
    obtain ⟨ready, incoming⟩ := s
    cases ready with
    | nil => exact ⟨0, done, incoming, rfl, h⟩
    | cons current ready =>
      -- As many nodes are gone as there are, and one more is ready.
      have hle := (List.subperm_of_subset h.nodup h.subset).length_le
      simp only [List.length_append, List.length_cons] at hle
      omega
  | succ rounds ih =>
    obtain ⟨ready, incoming⟩ := s
    cases ready with
    | nil => exact ⟨rounds + 1, done, incoming, rfl, h⟩
    | cons current ready =>
      obtain ⟨s', hinv, hstep⟩ := hloop rounds h
      rw [hstep]
      refine ih hinv ?_
      rw [List.length_append, List.length_singleton]
      omega

/-- The loop has taken away the nodes that went. -/
theorem Inv.consumeTopology {outgoing : Dict String (List String)}
    (houtgoing : ∀ node ∈ ids, outgoing.get? node = some (targetsOf edges node))
    (hedges : ∀ edge ∈ edges, edge.targetNodeId ∈ ids) (rounds : ℕ)
    (h : Inv ids edges done [] s) (hrounds : ids.length ≤ rounds + done.length) :
    ∃ gone incoming, GraphTopology.consumeTopology outgoing rounds s done.length
        = some (.ok gone.length) ∧
      Inv ids edges gone [] ⟨[], incoming⟩ := by
  obtain ⟨left, gone, incoming, hrun, hgone⟩ := h.exists_end
    (fun rounds done s => GraphTopology.consumeTopology outgoing rounds s done.length)
    (fun rounds hinv => by
      obtain ⟨s', hstep, hinv'⟩ := hinv.take Inv.release houtgoing hedges
      refine ⟨s', hinv', ?_⟩
      rw [List.length_append, List.length_singleton, GraphTopology.consumeTopology,
        GraphTopology.consumeNode, hstep]) rounds hrounds
  exact ⟨gone, incoming, hrun.trans (by cases left <;> rfl), hgone⟩

end Elimination

/-! ### The result -/

section Result

variable {nodes : List PipelineV2Node} {edges : List PipelineV2Edge}

theorem mem_readyNodes_iff {incoming : Dict String ℤ} {node : String} :
    node ∈ readyNodes incoming ↔ incoming.get? node = some 0 := by
  rw [readyNodes, List.mem_mergeSort, ← Dict.mem_entries_iff]
  simp

theorem nodup_readyNodes (incoming : Dict String ℤ) : (readyNodes incoming).Nodup := by
  rw [readyNodes, (List.mergeSort_perm _ _).nodup_iff]
  have hkeys : (incoming.entries.map Prod.fst).Nodup := by
    rw [List.Nodup, List.pairwise_map]
    exact incoming.sorted.imp fun hlt => hlt.ne
  exact hkeys.sublist (List.filter_sublist.map _)

/-- What the first counts say: no node is gone. -/
theorem Counted.inv {ids : List String} {counts : Counts} (h : Counted ids edges counts) :
    Inv ids edges [] [] ⟨readyNodes counts.incoming, counts.incoming⟩ := by
  have hfree : ∀ node ∈ ids, node ∈ readyNodes counts.incoming ↔ pending edges [] node = 0 := by
    intro node hnode
    rw [mem_readyNodes_iff, h.incoming, if_pos hnode, Option.some.injEq, Int.natCast_eq_zero]
  have hsubset : ∀ node ∈ readyNodes counts.incoming, node ∈ ids := by
    intro node hmem
    by_contra hnode
    rw [mem_readyNodes_iff, h.incoming, if_neg hnode] at hmem
    cases hmem
  refine ⟨nodup_readyNodes _, hsubset, fun node => ?_, fun node hnode => ?_, ?_⟩
  · rw [h.incoming, List.count_nil, Nat.zero_add]
  · rw [List.count_nil, Nat.zero_add]
    exact hfree node hnode
  · intro edge hedge hmem
    have hzero := (hfree _ (hsubset _ hmem)).mp hmem
    exact absurd (pending_eq_zero_iff.mp hzero edge hedge rfl) List.not_mem_nil

/-- **All nodes are taken away exactly when the graph is acyclic.** -/
theorem length_eq_iff_acyclic {ids gone : List String} {incoming : Dict String ℤ}
    (hids : ids.Nodup) (hedges : ∀ edge ∈ edges, edge.sourceNodeId ∈ ids ∧ edge.targetNodeId ∈ ids)
    (h : Inv ids edges gone [] ⟨[], incoming⟩) :
    gone.length = ids.length ↔ Acyclic (EdgeOf edges) := by
  have hnodup : gone.Nodup := by simpa using h.nodup
  have hsubset : gone ⊆ ids := fun node hmem => h.subset node (by simpa using hmem)
  constructor
  · intro hlength
    have hperm := (List.subperm_of_subset hnodup hsubset).perm_of_length_le hlength.ge
    refine acyclic_of_lt (f := gone.idxOf) fun source target hedge => ?_
    have htarget : target ∈ gone := hperm.mem_iff.mpr (hedges _ hedge).2
    simpa using h.ordered _ hedge (by simpa using htarget)
  · intro hacyclic
    have hall : ∀ node ∈ ids, node ∈ gone := by
      by_contra hsome
      push Not at hsome
      obtain ⟨node, hnode, hleft⟩ := hsome
      -- Of the nodes that are left, one is reached from none of them.
      obtain ⟨least, hleast, hnone⟩ := hacyclic.exists_minimal
        (s := ids.toFinset.filter fun other => other ∉ gone)
        ⟨node, Finset.mem_filter.mpr ⟨List.mem_toFinset.mpr hnode, hleft⟩⟩
      obtain ⟨hmem, hstays⟩ := Finset.mem_filter.mp hleast
      have hzero : ([] : List String).count least + pending edges gone least = 0 := by
        rw [List.count_nil, Nat.zero_add, pending_eq_zero_iff]
        rintro edge hedge rfl
        by_contra hsource
        exact hnone edge.sourceNodeId
          (Finset.mem_filter.mpr ⟨List.mem_toFinset.mpr (hedges edge hedge).1, hsource⟩) hedge
      have hgone := (h.free least (List.mem_toFinset.mp hmem)).mpr hzero
      rw [List.append_nil] at hgone
      exact hstays hgone
    exact ((List.perm_ext_iff_of_nodup hnodup hids).mpr fun node =>
      ⟨fun hmem => hsubset hmem, hall node⟩).length_eq

/-- What the cycle check computes: it ends, without a missing key, and has consumed every node exactly
when the graph is acyclic. -/
theorem cycleErrors_spec (hnodes : (nodes.map PipelineV2Node.id).Nodup)
    (hedges : ∀ edge ∈ edges, edge.sourceNodeId ∈ nodes.map PipelineV2Node.id ∧
      edge.targetNodeId ∈ nodes.map PipelineV2Node.id) {rounds : ℕ} (hrounds : nodes.length ≤ rounds) :
    ∃ consumed, cycleErrors rounds nodes edges
      = some (.ok (if consumed = nodes.length then []
        else [[("code", .str "cycle_detected"), ("node_count", .int nodes.length)]])) ∧
      (consumed = nodes.length ↔ Acyclic (EdgeOf edges)) := by
  obtain ⟨counts, hfold, hcounted⟩ := (counted_noCounts nodes).foldlM edges hedges
  rw [List.nil_append] at hcounted
  have houtgoing : ∀ node ∈ nodes.map PipelineV2Node.id,
      counts.outgoing.get? node = some (targetsOf edges node) := fun node hnode =>
    (hcounted.outgoing node).trans (if_pos hnode)
  obtain ⟨gone, incoming, hloop, hinv⟩ := hcounted.inv.consumeTopology houtgoing
    (fun edge hedge => (hedges edge hedge).2) rounds (by rwa [List.length_map])
  refine ⟨gone.length, ?_, ?_⟩
  · rw [List.length_nil] at hloop
    rw [cycleErrors, hfold]
    dsimp only
    rw [hloop]
    rfl
  · rw [← length_eq_iff_acyclic hnodes hedges hinv, List.length_map]

/-- **The cycle check is exact**: on nodes of distinct ids and edges between them it ends, without a
missing key, and reports no error exactly when the graph is acyclic. -/
theorem cycleErrors_eq_nil_iff_acyclic (hnodes : (nodes.map PipelineV2Node.id).Nodup)
    (hedges : ∀ edge ∈ edges, edge.sourceNodeId ∈ nodes.map PipelineV2Node.id ∧
      edge.targetNodeId ∈ nodes.map PipelineV2Node.id) :
    ∃ errors, (∀ rounds, nodes.length ≤ rounds → cycleErrors rounds nodes edges
        = some (.ok errors)) ∧
      (errors = [] ↔ Acyclic (EdgeOf edges)) := by
  by_cases hacyclic : Acyclic (EdgeOf edges)
  · refine ⟨[], fun rounds hrounds => ?_, iff_of_true rfl hacyclic⟩
    obtain ⟨consumed, hresult, hiff⟩ := cycleErrors_spec hnodes hedges hrounds
    rw [hresult, if_pos (hiff.mpr hacyclic)]
  · refine ⟨[[("code", .str "cycle_detected"), ("node_count", .int nodes.length)]],
      fun rounds hrounds => ?_, iff_of_false (List.cons_ne_nil _ _) hacyclic⟩
    obtain ⟨consumed, hresult, hiff⟩ := cycleErrors_spec hnodes hedges hrounds
    rw [hresult, if_neg (mt hiff.mp hacyclic)]

/-- The check, given a round for each node, reports nothing exactly when the graph is acyclic. -/
theorem cycleErrors_length_eq_iff (hnodes : (nodes.map PipelineV2Node.id).Nodup)
    (hedges : ∀ edge ∈ edges, edge.sourceNodeId ∈ nodes.map PipelineV2Node.id ∧
      edge.targetNodeId ∈ nodes.map PipelineV2Node.id) :
    cycleErrors nodes.length nodes edges = some (.ok []) ↔ Acyclic (EdgeOf edges) := by
  obtain ⟨consumed, hresult, hiff⟩ := cycleErrors_spec hnodes hedges le_rfl
  rw [hresult, ← hiff]
  split_ifs with hall <;> simp [hall]

/-- Two parallel edges, and a loop. -/
theorem cycleErrors_loop :
    ∃ errors, (∀ rounds, [PipelineV2Node.mk "a", ⟨"b"⟩].length ≤ rounds →
        cycleErrors rounds [⟨"a"⟩, ⟨"b"⟩] [⟨"a", "b"⟩, ⟨"a", "b"⟩, ⟨"b", "b"⟩]
          = some (.ok errors)) ∧
      (errors = [] ↔ Acyclic (EdgeOf [⟨"a", "b"⟩, ⟨"a", "b"⟩, ⟨"b", "b"⟩])) :=
  cycleErrors_eq_nil_iff_acyclic (by decide) (by decide)

end Result

end FoundryLite.Pipeline.GraphTopology
