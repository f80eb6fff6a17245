import FoundryLite.Aip.LogicRuntime

/-!
# The order of a logic graph

The search for an order ends, and it finds one exactly for the graphs that are well formed: distinct
ids, none of them empty, supported kinds, dependencies that are there, and no block that depends on
itself over others. In the order every block stands behind its dependencies, direct or not.

## Main results

* `topologicalOrder_spec`: the order exists exactly for the accepted graphs.
* `Ordered.mem_before`: what a block depends on stands before it.
-/

namespace FoundryLite.Aip.LogicRuntime

open Relation

/-- The block with the first id depends on the second. -/
def DependsOn (blocks : List LogicBlock) (blockId dependencyId : String) : Prop :=
  ∃ block ∈ blocks, block.blockId = blockId ∧ dependencyId ∈ block.dependsOn

/-- What a graph must be to have an order. -/
structure Accepted (blocks : List LogicBlock) : Prop where
  named : ∀ block ∈ blocks, block.blockId ≠ ""
  distinct : (blocks.map LogicBlock.blockId).Nodup
  supported : ∀ block ∈ blocks, block.kind ∈ supportedBlocks
  present : ∀ block ∈ blocks, ∀ dependencyId ∈ block.dependsOn,
    ∃ dependency ∈ blocks, dependency.blockId = dependencyId
  acyclic : Acyclic (DependsOn blocks)

/-- Every block once, behind its dependencies. -/
structure Ordered (blocks order : List LogicBlock) : Prop where
  perm : order.Perm blocks
  behind : ∀ before block after, order = before ++ block :: after → ∀ dependencyId ∈ block.dependsOn,
    dependencyId ∈ before.map LogicBlock.blockId

/-- How many rounds the search takes at most. -/
def enoughRounds (blocks : List LogicBlock) : ℕ := (blocks.map fun block => block.dependsOn.length + 1).sum

section Order

variable {blocks order : List LogicBlock}

theorem checkBlocks_eq_ok_iff {known : List String} :
    checkBlocks known blocks = .ok () ↔
      (∀ block ∈ blocks, block.blockId ≠ "" ∧ block.kind ∈ supportedBlocks ∧ block.blockId ∉ known) ∧
        (blocks.map LogicBlock.blockId).Nodup := by
  induction blocks generalizing known with
  | nil => simp [checkBlocks]
  | cons block blocks ih =>
    simp only [checkBlocks, requiredText, Except.bind_eq_ok_iff]
    by_cases hnamed : block.blockId = ""
    · simp [hnamed, logicRuntimeError]
    · by_cases hknown : block.blockId ∈ known
      · simp [hknown, logicRuntimeError]
      · by_cases hkind : block.kind ∈ supportedBlocks
        · have hfresh : ∀ b : LogicBlock, b.blockId ∉ block.blockId :: known ↔
              b.blockId ≠ block.blockId ∧ b.blockId ∉ known := by simp
          simp only [hnamed, hknown, hkind, if_false, not_true_eq_false, Except.pure_eq_ok_iff,
            exists_const, true_and, ih, List.forall_mem_cons, hfresh, List.map_cons, List.nodup_cons,
            List.mem_map, not_exists, not_and, ne_eq, not_false_iff]
          constructor
          · rintro ⟨hall, hnodup⟩
            exact ⟨fun b hb => ⟨(hall b hb).1, (hall b hb).2.1, (hall b hb).2.2.2⟩,
              fun b hb heq => (hall b hb).2.2.1 heq, hnodup⟩
          · rintro ⟨hall, hother, hnodup⟩
            exact ⟨fun b hb => ⟨(hall b hb).1, (hall b hb).2.1, fun heq => hother b hb heq,
              (hall b hb).2.2⟩, hnodup⟩
        · simp [hknown, hkind, logicRuntimeError]

theorem find?_eq_some_iff (hnodup : (blocks.map LogicBlock.blockId).Nodup) (blockId : String)
    (block : LogicBlock) : (graphOf blocks).find? blockId = some block ↔
      block ∈ blocks ∧ (graphOf blocks).key block = blockId := by
  constructor
  · exact fun h => ⟨List.mem_of_find?_eq_some h, (graphOf blocks).key_of_find? _ _ h⟩
  · rintro ⟨hmem, rfl⟩
    cases hfind : (graphOf blocks).find? ((graphOf blocks).key block) with
    | none => exact absurd (List.find?_eq_none.mp hfind block hmem) (by simp [graphOf])
    | some found =>
      exact congrArg some (List.inj_on_of_nodup_map hnodup (List.mem_of_find?_eq_some hfind) hmem
        ((graphOf blocks).key_of_find? _ _ hfind))

theorem needs_iff_dependsOn (hnodup : (blocks.map LogicBlock.blockId).Nodup) :
    PostOrder.Needs (graphOf blocks) = DependsOn blocks := by
  funext blockId dependencyId
  refine propext (exists_congr fun block => ?_)
  rw [find?_eq_some_iff hnodup, and_assoc]
  rfl

/-- **The search for an order ends, and it finds one exactly for the accepted graphs.** -/
theorem topologicalOrder_spec {rounds : ℕ} (h : enoughRounds blocks ≤ rounds) :
    ∃ result, topologicalOrder rounds blocks = some result ∧
      ((∃ order, result = .ok order) ↔ Accepted blocks) ∧
      ∀ order, result = .ok order → Ordered blocks order := by
  rw [topologicalOrder]
  cases hcheck : checkBlocks [] blocks with
  | error failure =>
    refine ⟨_, rfl, iff_of_false (by simp) fun haccepted => ?_, by simp⟩
    have hok : checkBlocks [] blocks = .ok () := checkBlocks_eq_ok_iff.mpr
      ⟨fun block hblock => ⟨haccepted.named block hblock, haccepted.supported block hblock,
        List.not_mem_nil⟩, haccepted.distinct⟩
    rw [hcheck] at hok
    simp at hok
  | ok =>
    obtain ⟨hall, hnodup⟩ := checkBlocks_eq_ok_iff.mp hcheck
    have hfind := find?_eq_some_iff hnodup
    have hiff := PostOrder.order_eq_ok_iff (G := graphOf blocks) hfind hnodup h
    rw [needs_iff_dependsOn hnodup] at hiff
    have haccepted : (∃ order, PostOrder.order (graphOf blocks) rounds blocks = some (.ok order)) ↔
        Accepted blocks := hiff.trans
      ⟨fun hright => ⟨fun block hblock => (hall block hblock).1, hnodup,
        fun block hblock => (hall block hblock).2.1, hright.1, hright.2⟩,
      fun haccepted => ⟨haccepted.present, haccepted.acyclic⟩⟩
    rcases PostOrder.order_spec (G := graphOf blocks) hfind hnodup h with
      ⟨order, horder, hperm, hbehind⟩ | ⟨failure, hfailure, -⟩
    · rw [horder] at haccepted
      refine ⟨.ok order, by simp [horder, Except.mapError], ?_, ?_⟩
      · exact iff_of_true ⟨order, rfl⟩ (haccepted.mp ⟨order, rfl⟩)
      · rintro order' hok
        obtain rfl := Except.ok.inj hok
        exact ⟨hperm, hbehind⟩
    · rw [hfailure] at haccepted
      refine ⟨.error (failureOf failure), by simp [hfailure, Except.mapError], ?_, by simp⟩
      rw [← haccepted]
      simp

/-- **What a block depends on, over others or not, stands before it.** -/
theorem Ordered.mem_before (h : Ordered blocks order) (hnodup : (blocks.map LogicBlock.blockId).Nodup)
    {before after : List LogicBlock} {block : LogicBlock} (heq : order = before ++ block :: after)
    {dependencyId : String} (hdepends : TransGen (DependsOn blocks) block.blockId dependencyId) :
    dependencyId ∈ before.map LogicBlock.blockId := by
  have hmem : ∀ b ∈ order, b ∈ blocks := fun b hb => h.perm.mem_iff.mp hb
  induction hdepends with
  | single hdirect =>
    obtain ⟨b, hb, hid, hdependency⟩ := hdirect
    obtain rfl := List.inj_on_of_nodup_map hnodup hb (hmem block (by simp [heq])) hid
    exact h.behind before b after heq _ hdependency
  | tail _ hdirect ih =>
    obtain ⟨c, hc, hcid⟩ := List.mem_map.mp ih
    obtain ⟨first, second, rfl⟩ := List.append_of_mem hc
    obtain ⟨b, hb, hid, hdependency⟩ := hdirect
    obtain rfl := List.inj_on_of_nodup_map hnodup hb (hmem c (by simp [heq])) (hid.trans hcid.symm)
    have hfirst := h.behind first b (second ++ block :: after) (by simp [heq]) _ hdependency
    rw [List.map_append]
    exact List.mem_append_left _ hfirst

/-- Neither the block itself nor what depends on it stands before it. -/
theorem Ordered.not_mem_before (h : Ordered blocks order)
    (hnodup : (blocks.map LogicBlock.blockId).Nodup) {before after : List LogicBlock}
    {block : LogicBlock} (heq : order = before ++ block :: after) {blockId : String}
    (hlater : ReflTransGen (DependsOn blocks) blockId block.blockId) :
    blockId ∉ before.map LogicBlock.blockId := by
  intro hmem
  have hids : (order.map LogicBlock.blockId).Nodup := (h.perm.map _).nodup_iff.mpr hnodup
  rw [heq, List.map_append, List.map_cons] at hids
  have hfresh : block.blockId ∉ before.map LogicBlock.blockId := fun hself =>
    (List.nodup_append.mp hids).2.2 _ hself _ List.mem_cons_self rfl
  obtain ⟨c, hc, rfl⟩ := List.mem_map.mp hmem
  rcases hlater.cases_head with hself | ⟨_, hdirect, hrest⟩
  · exact hfresh (hself ▸ hmem)
  · obtain ⟨first, second, rfl⟩ := List.append_of_mem hc
    have hsplit : order = first ++ c :: (second ++ block :: after) := by simp [heq]
    have hbefore := h.mem_before hnodup hsplit (TransGen.head' hdirect hrest)
    rw [List.map_append] at hfresh
    exact hfresh (List.mem_append_left _ hbefore)

end Order

end FoundryLite.Aip.LogicRuntime
